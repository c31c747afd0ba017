import Stencil.Proofs.Row.Clauses
import Stencil.Proofs.Tree

/-! # Settling a tree

A run over a written tree resolves the last innermost block first, also inside sections that are given
up later.  Read from the right, the tree is settled part by part: when a block is reached, everything
behind its header is without headers, so the block is the next one to be resolved.

* `Template.Chooses` is what data choose of a written tree, from the top down: literals and variables
  as they are written, and of each block the first section that applies.
* `Template.Chooses.unique`: they choose one row, if any; `chosen` forgets its levels.
* `Template.settling`: a run over a written tree, where splices move no blanks, comes to what is
  chosen of it.  `Settles.lift` makes such a run of a run on cores. -/

namespace Stencil

open Text

/-! ### What is chosen of a written tree -/

mutual

/-- What data choose of a row that writes a tree. -/
inductive Template.Chooses (data : Value) : Template → Row → Row → Prop where
  | empty : Template.Chooses data .empty [] []
  | literal {text : Text} {rest : Template} {w s : Row} : Template.Chooses data rest w s →
      Template.Chooses data (.literal text rest) (Row.literal text ++ w) (Row.literal text ++ s)
  | variable {body : Text} {rest : Template} {level : Nat} {w s : Row} : 1 ≤ level →
      Template.Chooses data rest w s →
      Template.Chooses data (.variable body rest) (.marker level body :: w) (.marker level body :: s)
  | holds {condition : Text} {body rest : Template} {branches : Branches} {opened closed : Nat}
      {u v w r s : Row} : 1 ≤ opened → 1 ≤ closed →
      evaluate (some (trim condition)) data = .ok true → Template.Chooses data body u r →
      Branches.Written branches v → Template.Chooses data rest w s →
      Template.Chooses data (.block condition body branches rest)
        (.marker opened (Directive.ifBody condition)
          :: (u ++ (v ++ .marker closed Directive.endBody :: w))) (r ++ s)
  | fails {condition : Text} {body rest : Template} {branches : Branches} {opened closed : Nat}
      {u v w r s : Row} : 1 ≤ opened → 1 ≤ closed →
      evaluate (some (trim condition)) data = .ok false → Template.Written body u →
      Branches.Chooses data branches v r → Template.Chooses data rest w s →
      Template.Chooses data (.block condition body branches rest)
        (.marker opened (Directive.ifBody condition)
          :: (u ++ (v ++ .marker closed Directive.endBody :: w))) (r ++ s)

/-- What data choose of a row that writes some branches: of the first one that is an `#else` or whose
condition holds. -/
inductive Branches.Chooses (data : Value) : Branches → Row → Row → Prop where
  | none : Branches.Chooses data .none [] []
  | elseIfHolds {condition : Text} {body : Template} {later : Branches} {level : Nat} {u v r : Row} :
      1 ≤ level → evaluate (some (trim condition)) data = .ok true →
      Template.Chooses data body u r → Branches.Written later v →
      Branches.Chooses data (.elseIf condition body later)
        (.marker level (Directive.elseIfBody condition) :: (u ++ v)) r
  | elseIfFails {condition : Text} {body : Template} {later : Branches} {level : Nat} {u v r : Row} :
      1 ≤ level → evaluate (some (trim condition)) data = .ok false →
      Template.Written body u → Branches.Chooses data later v r →
      Branches.Chooses data (.elseIf condition body later)
        (.marker level (Directive.elseIfBody condition) :: (u ++ v)) r
  | otherwise {body : Template} {later : Branches} {level : Nat} {u v r : Row} : 1 ≤ level →
      Template.Chooses data body u r → Branches.Written later v →
      Branches.Chooses data (.otherwise body later) (.marker level Directive.elseBody :: (u ++ v)) r

end

section chooses
variable {data : Value}

mutual

/-- Something is chosen of written trees only. -/
theorem Template.Chooses.written {t : Template} {w r : Row} : t.Chooses data w r → t.Written w
  | .empty => .empty
  | .literal rest => .literal (Template.Chooses.written rest)
  | .variable level rest => .variable level (Template.Chooses.written rest)
  | .holds opened closed _ body branches rest =>
    .block opened closed (Template.Chooses.written body) branches (Template.Chooses.written rest)
  | .fails opened closed _ body branches rest =>
    .block opened closed body (Branches.Chooses.written branches) (Template.Chooses.written rest)

theorem Branches.Chooses.written {bs : Branches} {v r : Row} : bs.Chooses data v r → bs.Written v
  | .none => .none
  | .elseIfHolds level _ body later => .elseIf level (Template.Chooses.written body) later
  | .elseIfFails level _ body later => .elseIf level body (Branches.Chooses.written later)
  | .otherwise level body later => .otherwise level (Template.Chooses.written body) later

end

mutual

/-- At level one, what is chosen is known from the tree. -/
theorem Template.Chooses.chosen {t : Template} {w r : Row} :
    t.Chooses data w r → t.chosen data = .ok r.plain
  | .empty => rfl
  | .literal rest => by
    rw [Template.chosen, ok_bind (Template.Chooses.chosen rest), Row.plain_append,
      Row.plain_literal]
    rfl
  | .variable _ rest => by
    rw [Template.chosen, ok_bind (Template.Chooses.chosen rest)]
    rfl
  | .holds _ _ holds body _ rest => by
    rw [Template.chosen, ok_bind holds, if_pos rfl, ok_bind (Template.Chooses.chosen body),
      ok_bind (Template.Chooses.chosen rest), Row.plain_append]
    rfl
  | .fails _ _ fails _ branches rest => by
    rw [Template.chosen, ok_bind fails, if_neg Bool.false_ne_true,
      ok_bind (Branches.Chooses.chosen branches), ok_bind (Template.Chooses.chosen rest),
      Row.plain_append]
    rfl

theorem Branches.Chooses.chosen {bs : Branches} {v r : Row} :
    bs.Chooses data v r → bs.chosen data = .ok r.plain
  | .none => rfl
  | .elseIfHolds _ holds body _ => by
    rw [Branches.chosen, ok_bind holds, if_pos rfl, Template.Chooses.chosen body]
  | .elseIfFails _ fails _ later => by
    rw [Branches.chosen, ok_bind fails, if_neg Bool.false_ne_true, Branches.Chooses.chosen later]
  | .otherwise _ body _ => Template.Chooses.chosen body

end

/-- What is chosen of a clean tree are characters and variables. -/
theorem Template.Chooses.isContent {d : Delimiters} {t : Template} (clean : t.Clean d) {w r : Row}
    (h : t.Chooses data w r) : r.IsContent := by
  intro s hs
  have content := Template.isContent_chosen clean h.chosen
  exact isContent_plain.mp (content s.plain (List.mem_map_of_mem hs))

/-! ### One choice -/

/-- Rows that differ in their levels only are equally long, so what follows them is found at the same
place. -/
theorem Row.append_inj_of_plain {u u' w w' : Row} (same : u.plain = u'.plain)
    (h : u ++ w = u' ++ w') : u = u' ∧ w = w' := by
  apply List.append_inj h
  simpa [Row.plain] using congrArg List.length same

theorem Template.Written.append_inj {t : Template} {u u' w w' : Row} (hu : t.Written u)
    (hu' : t.Written u') (h : u ++ w = u' ++ w') : u = u' ∧ w = w' :=
  Row.append_inj_of_plain
    ((Template.plain_of_written hu).trans (Template.plain_of_written hu').symm) h

theorem Branches.Written.append_inj {bs : Branches} {v v' w w' : Row} (hv : bs.Written v)
    (hv' : bs.Written v') (h : v ++ w = v' ++ w') : v = v' ∧ w = w' :=
  Row.append_inj_of_plain
    ((Branches.plain_of_written hv).trans (Branches.plain_of_written hv').symm) h

-- The rows of a block's parts lie one behind the other.  They are told apart by their lengths, which
-- the tree fixes, and only then does the induction hypothesis apply to them.
mutual

theorem Template.Chooses.eq {t : Template} {w w' r r' : Row} :
    t.Chooses data w r → t.Chooses data w' r' → w = w' → r = r'
  | .empty, .empty, _ => rfl
  | .literal rest, .literal rest', e => by
    rw [Template.Chooses.eq rest rest' (List.append_cancel_left e)]
  | .variable _ rest, .variable _ rest', e => by
    rw [(List.cons.inj e).1, Template.Chooses.eq rest rest' (List.cons.inj e).2]
  | .holds _ _ _ body branches rest, .holds _ _ _ body' branches' rest', e => by
    obtain ⟨eu, e⟩ := body.written.append_inj body'.written (List.cons.inj e).2
    obtain ⟨-, e⟩ := branches.append_inj branches' e
    rw [Template.Chooses.eq body body' eu, Template.Chooses.eq rest rest' (List.cons.inj e).2]
  | .fails _ _ _ body branches rest, .fails _ _ _ body' branches' rest', e => by
    obtain ⟨-, e⟩ := body.append_inj body' (List.cons.inj e).2
    obtain ⟨ev, e⟩ := branches.written.append_inj branches'.written e
    rw [Branches.Chooses.eq branches branches' ev,
      Template.Chooses.eq rest rest' (List.cons.inj e).2]
  | .holds _ _ holds .., .fails _ _ fails .., _ => by simp [holds] at fails
  | .fails _ _ fails .., .holds _ _ holds .., _ => by simp [holds] at fails

theorem Branches.Chooses.eq {bs : Branches} {v v' r r' : Row} :
    bs.Chooses data v r → bs.Chooses data v' r' → v = v' → r = r'
  | .none, .none, _ => rfl
  | .elseIfHolds _ _ body _, .elseIfHolds _ _ body' _, e =>
    have parts := body.written.append_inj body'.written (List.cons.inj e).2
    Template.Chooses.eq body body' parts.1
  | .elseIfFails _ _ body later, .elseIfFails _ _ body' later', e =>
    have parts := body.append_inj body' (List.cons.inj e).2
    Branches.Chooses.eq later later' parts.2
  | .otherwise _ body _, .otherwise _ body' _, e =>
    have parts := body.written.append_inj body'.written (List.cons.inj e).2
    Template.Chooses.eq body body' parts.1
  | .elseIfHolds _ holds .., .elseIfFails _ fails .., _ => by simp [holds] at fails
  | .elseIfFails _ fails .., .elseIfHolds _ holds .., _ => by simp [holds] at fails

end

/-- **Of a written tree one row is chosen.** -/
theorem Template.Chooses.unique {t : Template} {w r r' : Row} (h : t.Chooses data w r)
    (h' : t.Chooses data w r') : r = r' := h.eq h' rfl

end chooses

/-! ### Branches with what is chosen in each -/

/-- Clauses that are the branches of a written row, with what is chosen in each. -/
inductive Branches.Settled (data : Value) : Branches → Row → List (Symbol × Row) → Prop where
  | none : Branches.Settled data .none [] []
  | elseIf {condition : Text} {body : Template} {later : Branches} {level : Nat} {u v r : Row}
      {clauses : List (Symbol × Row)} : 1 ≤ level → Template.Chooses data body u r →
      Branches.Settled data later v clauses →
      Branches.Settled data (.elseIf condition body later)
        (.marker level (Directive.elseIfBody condition) :: (u ++ v))
        ((.marker level (Directive.elseIfBody condition), r) :: clauses)
  | otherwise {body : Template} {later : Branches} {level : Nat} {u v r : Row}
      {clauses : List (Symbol × Row)} : 1 ≤ level → Template.Chooses data body u r →
      Branches.Settled data later v clauses →
      Branches.Settled data (.otherwise body later)
        (.marker level Directive.elseBody :: (u ++ v)) ((.marker level Directive.elseBody, r) :: clauses)

namespace Branches.Settled
variable {d : Delimiters} {data : Value} {bs : Branches} {v r : Row} {clauses : List (Symbol × Row)}

theorem written (h : bs.Settled data v clauses) : bs.Written v := by
  induction h with
  | none => exact .none
  | elseIf level body _ later => exact .elseIf level body.written later
  | otherwise level body _ later => exact .otherwise level body.written later

theorem areBranches (h : bs.Settled data v clauses) (clean : bs.Clean d) : AreBranches clauses := by
  induction h with
  | none => exact List.forall_mem_nil _
  | elseIf level body _ ih =>
    obtain ⟨-, hbody, hlater⟩ := clean
    refine List.forall_mem_cons.mpr ⟨⟨?_, neutral_of_isContent (body.isContent hbody)⟩, ih hlater⟩
    simp [Symbol.isBranch, Symbol.directive?, Directive.ofBody?_elseIfBody]
  | otherwise level body _ ih =>
    obtain ⟨hbody, hlater⟩ := clean
    refine List.forall_mem_cons.mpr ⟨⟨?_, neutral_of_isContent (body.isContent hbody)⟩, ih hlater⟩
    simp [Symbol.isBranch, Symbol.directive?, Directive.ofBody?_elseBody]

/-- Choosing among the clauses is choosing among the branches. -/
theorem chooses (h : bs.Settled data v clauses) (hr : chooseClause data clauses = .ok r) :
    bs.Chooses data v r := by
  induction h generalizing r with
  | none =>
    obtain rfl := Except.ok.inj hr
    exact .none
  | @elseIf condition _ _ level _ _ _ _ pos body settled ih =>
    have no_else : (Symbol.marker level (Directive.elseIfBody condition)).directive?
        ≠ some .otherwise := by
      simp [Symbol.directive?, Directive.ofBody?_elseIfBody]
    rw [chooseClause, if_neg no_else] at hr
    obtain ⟨holds, he, hr⟩ := ok_of_bind hr
    rw [Symbol.body, Directive.argumentOf_elseIfBody] at he
    cases holds with
    | true =>
      obtain rfl := Except.ok.inj hr
      exact .elseIfHolds pos he body settled.written
    | false => exact .elseIfFails pos he body.written (ih hr)
  | @otherwise _ _ level _ _ _ _ pos body settled ih =>
    have is_else : (Symbol.marker level Directive.elseBody).directive? = some .otherwise :=
      Directive.ofBody?_elseBody
    rw [chooseClause, if_pos is_else] at hr
    obtain rfl := Except.ok.inj hr
    exact .otherwise pos body settled.written

end Branches.Settled

/-! ### Settling a tree -/

section settles
variable {d : Delimiters} {data : Value} {n : Nat} {out : Row}

/-- An innermost block behind which no header comes is resolved by the next pass. -/
theorem Settles.of_block {b : RowBlock} (hb : b.Innermost) (last : b.after.Unopened)
    (h : Settles data n b.row out) : ∃ r, chooseClause data b.clauses = .ok r
      ∧ ∃ m, Settles data m (b.before ++ r ++ b.after) out := by
  have found := Row.block?_append hb last
  cases h with
  | done none_found =>
    rw [found] at none_found
    simp at none_found
  | pass hb' hr later =>
    obtain rfl := Option.some.inj (found.symm.trans hb')
    exact ⟨_, hr, _, later⟩

/-- What is left of a row without directives is the row itself. -/
theorem Settles.eq_of_neutral {w : Row} (neutral : w.Neutral) (h : Settles data n w out) : out = w := by
  have none_found : Row.block? w = none := Row.block?_eq_none (unopened_of_neutral neutral)
  cases h with
  | done => rfl
  | pass found =>
    rw [none_found] at found
    simp at found

/-- A run on a core is the core of a run. -/
theorem Settles.lift {w : Row} (h : Settles data n w.core out) :
    ∃ left, Settles data n w left ∧ left.core = out := by
  -- Every block of a core is the core of a block, so the run can be followed pass by pass.
  generalize hv : w.core = v at h
  induction h generalizing w with
  | done none_found =>
    rw [← hv, block?_core] at none_found
    exact ⟨w, .done (Option.map_eq_none_iff.mp none_found), hv⟩
  | pass found chosen _ ih =>
    rw [← hv, block?_core] at found
    obtain ⟨b, hb, rfl⟩ := Option.map_eq_some_iff.mp found
    rw [clauses_core, chooseClause_core] at chosen
    obtain ⟨r, hr, rfl⟩ := ok_of_map chosen
    obtain ⟨left, settles, e⟩ := ih (w := b.before ++ r ++ b.after) (by simp [RowBlock.core])
    exact ⟨left, .pass hb hr settles, e⟩

/-- What is chosen of a settled block: its first section, or what is chosen of its branches. -/
theorem chooseClause_block {condition : Text} {level : Nat} {u r : Row}
    {clauses : List (Symbol × Row)} (neutral : u.Neutral) (branches : AreBranches clauses)
    {b : RowBlock} (header : b.header = .marker level (Directive.ifBody condition))
    (inner : b.inner = u ++ joined clauses) (h : chooseClause data b.clauses = .ok r) :
    ∃ holds, evaluate (some (trim condition)) data = .ok holds
      ∧ (if holds then .ok u else chooseClause data clauses) = Except.ok r := by
  have cut : b.clauses = (.marker level (Directive.ifBody condition), u) :: clauses := by
    rw [RowBlock.clauses, header, inner, cutBranches_append neutral, cutBranches_joined branches,
      List.append_nil]
  have no_else : (Symbol.marker level (Directive.ifBody condition)).directive?
      ≠ some .otherwise := by
    simp [Symbol.directive?, Directive.ofBody?_ifBody]
  rw [cut, chooseClause, if_neg no_else] at h
  obtain ⟨holds, he, h⟩ := ok_of_bind h
  rw [Symbol.body, Directive.argumentOf_ifBody] at he
  exact ⟨holds, he, h⟩

/-- Whatever stands in front of a written tree and whatever without a header behind it, a run past the
tree comes to what is chosen of it. -/
def Template.Settling (data : Value) (out : Row) (t : Template) (w : Row) : Prop :=
  ∀ {pre post : Row} {n : Nat}, post.Unopened → Settles data n (pre ++ (w ++ post)) out →
    ∃ r, t.Chooses data w r ∧ ∃ m, Settles data m (pre ++ (r ++ post)) out

/-- The same of branches and what is chosen of each. -/
def Branches.Settling (data : Value) (out : Row) (bs : Branches) (v : Row) : Prop :=
  ∀ {pre post : Row} {n : Nat}, post.Unopened → Settles data n (pre ++ (v ++ post)) out →
    ∃ clauses, bs.Settled data v clauses ∧ ∃ m, Settles data m (pre ++ (joined clauses ++ post)) out

/-- What stands in front of the rest of a tree without a directive stays in front of it. -/
theorem settling_prefix {t rest : Template} {w : Row} (own : Row)
    (chooses : ∀ r, rest.Chooses data w r → t.Chooses data (own ++ w) (own ++ r))
    (later : rest.Settling data out w) : t.Settling data out (own ++ w) := by
  intro pre post n last h
  have apart (u : Row) : pre ++ ((own ++ u) ++ post) = (pre ++ own) ++ (u ++ post) := by
    rw [List.append_assoc, List.append_assoc]
  rw [apart] at h
  obtain ⟨r, hr, m, h⟩ := later last h
  refine ⟨own ++ r, chooses r hr, m, ?_⟩
  rw [apart]
  exact h

/-- A section is settled after the branches behind it. -/
theorem settling_clause {opener : Symbol} {body : Template} {later : Branches} {u v pre post : Row}
    (clean : later.Clean d) (inside : body.Settling data out u) (aside : later.Settling data out v)
    (last : post.Unopened) (h : Settles data n (pre ++ (opener :: (u ++ v) ++ post)) out) :
    ∃ r clauses, body.Chooses data u r ∧ later.Settled data v clauses
      ∧ ∃ m, Settles data m (pre ++ (joined ((opener, r) :: clauses) ++ post)) out := by
  have at_later : Settles data n ((pre ++ opener :: u) ++ (v ++ post)) out := by
    simpa using h
  obtain ⟨clauses, settled, m, h⟩ := aside last at_later
  have level := level_joined (settled.areBranches clean)
  have last_clauses := unopened_append (fun s hs => (level s hs).1) last
  have at_body : Settles data m ((pre ++ [opener]) ++ (u ++ (joined clauses ++ post))) out := by
    simpa using h
  obtain ⟨r, hr, m, h⟩ := inside last_clauses at_body
  refine ⟨r, clauses, hr, settled, m, ?_⟩
  simpa [joined] using h

/-- A block is settled from its end: first what follows it, then its sections.  The next pass is its
own. -/
theorem settling_block {condition : Text} {body rest : Template} {branches : Branches}
    {opened closed : Nat} {u v w : Row} (hopened : 1 ≤ opened) (hclosed : 1 ≤ closed)
    (clean : (Template.block condition body branches rest).Clean d)
    (inside : body.Settling data out u) (aside : branches.Settling data out v)
    (later : rest.Settling data out w) :
    (Template.block condition body branches rest).Settling data out
      (.marker opened (Directive.ifBody condition)
        :: (u ++ (v ++ .marker closed Directive.endBody :: w))) := by
  intro pre post n last h
  obtain ⟨-, hbody, hbranches, hrest⟩ := clean
  let header := Symbol.marker opened (Directive.ifBody condition)
  let footer := Symbol.marker closed Directive.endBody
  have is_end : footer.directive? = some .endIf := Directive.ofBody?_endBody
  have at_rest : Settles data n ((pre ++ header :: (u ++ (v ++ [footer]))) ++ (w ++ post)) out := by
    simpa [header, footer] using h
  obtain ⟨s, hs, m, h⟩ := later last at_rest
  have last_rest : Row.Unopened (s ++ post) :=
    unopened_append (unopened_of_isContent (hs.isContent hrest)) last
  have last_footer : Row.Unopened (footer :: (s ++ post)) :=
    List.forall_mem_cons.mpr ⟨by simp [is_end], last_rest⟩
  have at_sections : Settles data m (pre ++ (header :: (u ++ v) ++ footer :: (s ++ post))) out := by
    simpa using h
  obtain ⟨r, clauses, hr, settled, m, h⟩ :=
    settling_clause hbranches inside aside last_footer at_sections
  have branches_settled := settled.areBranches hbranches
  have neutral := neutral_of_isContent (hr.isContent hbody)
  let b : RowBlock := ⟨pre, header, r ++ joined clauses, footer, s ++ post⟩
  have innermost : b.Innermost := by
    refine ⟨Directive.ofBody?_ifBody condition, ?_, is_end⟩
    exact List.forall_mem_append.mpr ⟨level_of_neutral neutral, level_joined branches_settled⟩
  have at_block : Settles data m b.row out := by
    simpa [RowBlock.row, b, joined] using h
  obtain ⟨shown, hshown, m, h⟩ := at_block.of_block innermost last_rest
  obtain ⟨holds, he, hshown⟩ := chooseClause_block neutral branches_settled rfl rfl hshown
  refine ⟨shown ++ s, ?_, m, by simpa [b] using h⟩
  cases holds with
  | true =>
    obtain rfl := Except.ok.inj hshown
    exact .holds hopened hclosed he hr settled.written hs
  | false => exact .fails hopened hclosed he hr.written (settled.chooses hshown) hs

mutual

/-- **A run over a written tree comes to what is chosen from the top down.** -/
theorem Template.settling {t : Template} {w : Row} :
    t.Written w → t.Clean d → t.Settling data out w
  | .empty, _ => fun _ h => ⟨[], .empty, _, h⟩
  | .literal rest, clean =>
    settling_prefix _ (fun _ => .literal) (Template.settling rest clean.2)
  | .variable level rest, clean =>
    settling_prefix [_] (fun _ => .variable level) (Template.settling rest clean.2)
  | .block opened closed body branches rest, clean =>
    settling_block opened closed clean (Template.settling body clean.2.1)
      (Branches.settling branches clean.2.2.1) (Template.settling rest clean.2.2.2)

theorem Branches.settling {bs : Branches} {v : Row} :
    bs.Written v → bs.Clean d → bs.Settling data out v
  | .none, _ => fun _ h => ⟨[], .none, _, h⟩
  | .elseIf level body later, ⟨_, hbody, hlater⟩ => by
    intro last h
    obtain ⟨r, clauses, hr, settled, m, h⟩ := settling_clause hlater
      (Template.settling body hbody) (Branches.settling later hlater) last h
    exact ⟨_, .elseIf level hr settled, m, h⟩
  | .otherwise level body later, ⟨hbody, hlater⟩ => by
    intro last h
    obtain ⟨r, clauses, hr, settled, m, h⟩ := settling_clause hlater
      (Template.settling body hbody) (Branches.settling later hlater) last h
    exact ⟨_, .otherwise level hr settled, m, h⟩

end

/-- What a run over a written tree comes to is chosen of it. -/
theorem Settles.chooses {t : Template} (clean : t.Clean d) {w : Row} (written : t.Written w)
    (h : Settles data n w out) : t.Chooses data w out := by
  have at_tree : Settles data n ([] ++ (w ++ [])) out := by simpa using h
  obtain ⟨r, chosen, m, settled⟩ := Template.settling written clean (List.forall_mem_nil _) at_tree
  rw [List.nil_append, List.append_nil] at settled
  rw [settled.eq_of_neutral (neutral_of_isContent (chosen.isContent clean))]
  exact chosen

end settles
end Stencil
