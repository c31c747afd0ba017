import Stencil.Proofs.Row.Shown
import Stencil.Proofs.Words

/-! # Template trees

A template as its author thinks of it: literal text, variables, and conditional blocks whose sections
are templates again.  A tree is written as a row of symbols, with the level of every marker chosen
freely, and it has a meaning that is read off from the top down.

* `Template.Written` relates a tree to the rows that write it; `clean_of_written` and
  `plain_of_written` say what these have in common.
* `Template.meaning` is the text that a tree stands for.
* `Template.chosen` is the row of the literals and variables that the meaning is made of;
  `meaning_of_chosen` makes the meaning out of it. -/

namespace Stencil

open Text

/-! ### Trees -/

mutual

/-- A template: a sequence of literal text, variables and conditional blocks. -/
inductive Template where
  | empty
  | literal (text : Text) (rest : Template)
  | variable (body : Text) (rest : Template)
  | block (condition : Text) (body : Template) (branches : Branches) (rest : Template)

/-- The branches of a conditional block. -/
inductive Branches where
  | none
  | elseIf (condition : Text) (body : Template) (later : Branches)
  | otherwise (body : Template) (later : Branches)

end

mutual

/-- Literals, bodies and conditions hold no character of the delimiters, and the bodies of variables
name variables. -/
def Template.Clean (d : Delimiters) : Template → Prop
  | .empty => True
  | .literal text rest => d.Clean text ∧ rest.Clean d
  | .variable body rest => (isVariableBody body = true ∧ d.Clean body) ∧ rest.Clean d
  | .block condition body branches rest =>
    d.Clean condition ∧ body.Clean d ∧ branches.Clean d ∧ rest.Clean d

/-- The same of branches. -/
def Branches.Clean (d : Delimiters) : Branches → Prop
  | .none => True
  | .elseIf condition body later => d.Clean condition ∧ body.Clean d ∧ later.Clean d
  | .otherwise body later => body.Clean d ∧ later.Clean d

end

mutual

def Template.decidableClean (d : Delimiters) : (t : Template) → Decidable (t.Clean d)
  | .empty => inferInstanceAs (Decidable True)
  | .literal _ rest =>
    have := Template.decidableClean d rest
    inferInstanceAs (Decidable (_ ∧ _))
  | .variable _ rest =>
    have := Template.decidableClean d rest
    inferInstanceAs (Decidable (_ ∧ _))
  | .block _ body branches rest =>
    have := Template.decidableClean d body
    have := Branches.decidableClean d branches
    have := Template.decidableClean d rest
    inferInstanceAs (Decidable (_ ∧ _ ∧ _ ∧ _))

def Branches.decidableClean (d : Delimiters) : (bs : Branches) → Decidable (bs.Clean d)
  | .none => inferInstanceAs (Decidable True)
  | .elseIf _ body later =>
    have := Template.decidableClean d body
    have := Branches.decidableClean d later
    inferInstanceAs (Decidable (_ ∧ _ ∧ _))
  | .otherwise body later =>
    have := Template.decidableClean d body
    have := Branches.decidableClean d later
    inferInstanceAs (Decidable (_ ∧ _))

end

instance (d : Delimiters) (t : Template) : Decidable (t.Clean d) := t.decidableClean d

/-! ### Writing a tree -/

mutual

/-- The rows that write a tree. -/
inductive Template.Written : Template → Row → Prop where
  | empty : Template.Written .empty []
  | literal {text : Text} {rest : Template} {w : Row} : Template.Written rest w →
      Template.Written (.literal text rest) (Row.literal text ++ w)
  | variable {body : Text} {rest : Template} {level : Nat} {w : Row} : 1 ≤ level →
      Template.Written rest w → Template.Written (.variable body rest) (.marker level body :: w)
  | block {condition : Text} {body rest : Template} {branches : Branches} {opened closed : Nat}
      {u v w : Row} : 1 ≤ opened → 1 ≤ closed → Template.Written body u →
      Branches.Written branches v → Template.Written rest w →
      Template.Written (.block condition body branches rest)
        (.marker opened (Directive.ifBody condition)
          :: (u ++ (v ++ .marker closed Directive.endBody :: w)))

/-- The rows that write some branches. -/
inductive Branches.Written : Branches → Row → Prop where
  | none : Branches.Written .none []
  | elseIf {condition : Text} {body : Template} {later : Branches} {level : Nat} {u v : Row} :
      1 ≤ level → Template.Written body u → Branches.Written later v →
      Branches.Written (.elseIf condition body later)
        (.marker level (Directive.elseIfBody condition) :: (u ++ v))
  | otherwise {body : Template} {later : Branches} {level : Nat} {u v : Row} :
      1 ≤ level → Template.Written body u → Branches.Written later v →
      Branches.Written (.otherwise body later) (.marker level Directive.elseBody :: (u ++ v))

end

mutual

/-- The row that writes a tree with markers of level one. -/
def Template.row : Template → Row
  | .empty => []
  | .literal text rest => Row.literal text ++ rest.row
  | .variable body rest => .marker 1 body :: rest.row
  | .block condition body branches rest =>
    .marker 1 (Directive.ifBody condition)
      :: (body.row ++ (branches.row ++ .marker 1 Directive.endBody :: rest.row))

/-- The row that writes some branches with markers of level one. -/
def Branches.row : Branches → Row
  | .none => []
  | .elseIf condition body later =>
    .marker 1 (Directive.elseIfBody condition) :: (body.row ++ later.row)
  | .otherwise body later => .marker 1 Directive.elseBody :: (body.row ++ later.row)

end

theorem plain_marker (level : Nat) (body : Text) (w : Row) :
    Row.plain (.marker level body :: w) = .marker 1 body :: Row.plain w := rfl

mutual

/-- The rows that write a tree differ in their levels only. -/
theorem Template.plain_of_written {t : Template} {w : Row} : t.Written w → w.plain = t.row
  | .empty => rfl
  | .literal rest => by
    rw [Template.row, Row.plain_append, Row.plain_literal, Template.plain_of_written rest]
  | .variable _ rest => by
    rw [Template.row, plain_marker, Template.plain_of_written rest]
  | .block _ _ body branches rest => by
    simp only [Template.row, plain_marker, Row.plain_append, Template.plain_of_written body,
      Branches.plain_of_written branches, Template.plain_of_written rest]

theorem Branches.plain_of_written {bs : Branches} {w : Row} : bs.Written w → w.plain = bs.row
  | .none => rfl
  | .elseIf _ body later => by
    simp only [Branches.row, plain_marker, Row.plain_append, Template.plain_of_written body,
      Branches.plain_of_written later]
  | .otherwise _ body later => by
    simp only [Branches.row, plain_marker, Row.plain_append, Template.plain_of_written body,
      Branches.plain_of_written later]

end

mutual

/-- The rows that write a clean tree are clean. -/
theorem Template.clean_of_written {d : Delimiters} (plain : d.Plain) {t : Template} {w : Row} :
    t.Written w → t.Clean d → w.Clean d
  | .empty, _ => List.forall_mem_nil _
  | .literal rest, ⟨text, later⟩ =>
    Row.clean_append.mpr ⟨Row.clean_literal.mpr text, Template.clean_of_written plain rest later⟩
  | .variable level rest, ⟨⟨named, body⟩, later⟩ =>
    Row.clean_cons.mpr
      ⟨⟨level, ne_nil_of_isVariableBody named, body⟩, Template.clean_of_written plain rest later⟩
  | .block opened closed body branches rest, ⟨condition, hbody, hbranches, later⟩ => by
    refine Row.clean_cons.mpr ⟨⟨opened, List.cons_ne_nil _ _, plain.ifBody condition⟩, ?_⟩
    refine Row.clean_append.mpr ⟨Template.clean_of_written plain body hbody, ?_⟩
    refine Row.clean_append.mpr ⟨Branches.clean_of_written plain branches hbranches, ?_⟩
    exact Row.clean_cons.mpr
      ⟨⟨closed, List.cons_ne_nil _ _, plain.endBody⟩, Template.clean_of_written plain rest later⟩

theorem Branches.clean_of_written {d : Delimiters} (plain : d.Plain) {bs : Branches} {w : Row} :
    bs.Written w → bs.Clean d → w.Clean d
  | .none, _ => List.forall_mem_nil _
  | .elseIf level body later, ⟨condition, hbody, hlater⟩ => by
    refine Row.clean_cons.mpr ⟨⟨level, List.cons_ne_nil _ _, plain.elseIfBody condition⟩, ?_⟩
    exact Row.clean_append.mpr
      ⟨Template.clean_of_written plain body hbody, Branches.clean_of_written plain later hlater⟩
  | .otherwise level body later, ⟨hbody, hlater⟩ => by
    refine Row.clean_cons.mpr ⟨⟨level, List.cons_ne_nil _ _, plain.elseBody⟩, ?_⟩
    exact Row.clean_append.mpr
      ⟨Template.clean_of_written plain body hbody, Branches.clean_of_written plain later hlater⟩

end

/-! ### The meaning of a tree -/

mutual

/-- The text that a tree stands for: literals as they are, the values of the variables, and of each
block the first section that applies. -/
def Template.meaning (data : Value) : Template → Except Fault Text
  | .empty => .ok []
  | .literal text rest => do return text ++ (← rest.meaning data)
  | .variable body rest => do
    return (← Value.shownAt (trim body) data) ++ (← rest.meaning data)
  | .block condition body branches rest => do
    let holds ← evaluate (some (trim condition)) data
    let shown ← (if holds then body.meaning data else branches.meaning data)
    return shown ++ (← rest.meaning data)

/-- What the first of some branches stands for that is an `#else` or whose condition holds. -/
def Branches.meaning (data : Value) : Branches → Except Fault Text
  | .none => .ok []
  | .elseIf condition body later => do
    let holds ← evaluate (some (trim condition)) data
    if holds then body.meaning data else later.meaning data
  | .otherwise body _ => body.meaning data

end

mutual

/-- The literals and variables that the meaning of a tree is made of. -/
def Template.chosen (data : Value) : Template → Except Fault Row
  | .empty => .ok []
  | .literal text rest => do return Row.literal text ++ (← rest.chosen data)
  | .variable body rest => do return .marker 1 body :: (← rest.chosen data)
  | .block condition body branches rest => do
    let holds ← evaluate (some (trim condition)) data
    let shown ← (if holds then body.chosen data else branches.chosen data)
    return shown ++ (← rest.chosen data)

/-- The literals and variables of the first of some branches that applies. -/
def Branches.chosen (data : Value) : Branches → Except Fault Row
  | .none => .ok []
  | .elseIf condition body later => do
    let holds ← evaluate (some (trim condition)) data
    if holds then body.chosen data else later.chosen data
  | .otherwise body _ => body.chosen data

end

section chosen
variable {d : Delimiters} {data : Value}

theorem shown_append_eq_ok {u v : Row} {m : Text} (h : Row.shown d data (u ++ v) = .ok m) :
    ∃ a b, Row.shown d data u = .ok a ∧ Row.shown d data v = .ok b ∧ m = a ++ b := by
  induction u generalizing m with
  | nil => exact ⟨[], m, rfl, h, rfl⟩
  | cons s u ih =>
    obtain ⟨first, hs, h⟩ := ok_of_bind h
    obtain ⟨rest, hr, h⟩ := ok_of_bind h
    obtain ⟨a, b, ha, hb, rfl⟩ := ih hr
    refine ⟨first ++ a, b, ?_, hb, ?_⟩
    · rw [Row.shown, ok_bind hs, ok_bind ha]
      rfl
    · rw [List.append_assoc]
      exact (Except.ok.inj h).symm

mutual

theorem Template.isContent_chosen : {t : Template} → t.Clean d → {r : Row} →
    t.chosen data = .ok r → r.IsContent
  | .empty, _, _, h => by
    rw [← Except.ok.inj h]
    exact List.forall_mem_nil _
  | .literal text rest, clean, r, h => by
    obtain ⟨later, hl, h⟩ := ok_of_bind h
    rw [← Except.ok.inj h]
    refine List.forall_mem_append.mpr ⟨?_, Template.isContent_chosen clean.2 hl⟩
    intro s hs
    obtain ⟨c, -, rfl⟩ := List.mem_map.mp hs
    trivial
  | .variable body rest, clean, r, h => by
    obtain ⟨later, hl, h⟩ := ok_of_bind h
    rw [← Except.ok.inj h]
    exact List.forall_mem_cons.mpr ⟨clean.1.1, Template.isContent_chosen clean.2 hl⟩
  | .block condition body branches rest, ⟨_, hb, hbs, hrest⟩, r, h => by
    obtain ⟨holds, -, h⟩ := ok_of_bind h
    obtain ⟨shown, hs, h⟩ := ok_of_bind h
    obtain ⟨later, hl, h⟩ := ok_of_bind h
    rw [← Except.ok.inj h]
    refine List.forall_mem_append.mpr ⟨?_, Template.isContent_chosen hrest hl⟩
    cases holds with
    | true => exact Template.isContent_chosen hb hs
    | false => exact Branches.isContent_chosen hbs hs

theorem Branches.isContent_chosen : {bs : Branches} → bs.Clean d → {r : Row} →
    bs.chosen data = .ok r → r.IsContent
  | .none, _, _, h => by
    rw [← Except.ok.inj h]
    exact List.forall_mem_nil _
  | .elseIf condition body later, clean, r, h => by
    obtain ⟨holds, -, h⟩ := ok_of_bind h
    cases holds with
    | true => exact Template.isContent_chosen clean.2.1 h
    | false => exact Branches.isContent_chosen clean.2.2 h
  | .otherwise body later, clean, r, h => Template.isContent_chosen clean.1 h

end

mutual

/-- The meaning of a tree is what its literals and variables show. -/
theorem Template.meaning_of_chosen : {t : Template} → t.Clean d → {r : Row} → {m : Text} →
    t.chosen data = .ok r → r.shown d data = .ok m → t.meaning data = .ok m
  | .empty, _, _, _, h, hm => by
    rw [← Except.ok.inj h] at hm
    exact hm
  | .literal text rest, clean, r, m, h, hm => by
    obtain ⟨later, hl, h⟩ := ok_of_bind h
    rw [← Except.ok.inj h] at hm
    obtain ⟨a, b, ha, hb, rfl⟩ := shown_append_eq_ok hm
    rw [shown_literal, Except.ok.injEq] at ha
    rw [Template.meaning, ok_bind (Template.meaning_of_chosen clean.2 hl hb), ha]
    rfl
  | .variable body rest, clean, r, m, h, hm => by
    obtain ⟨later, hl, h⟩ := ok_of_bind h
    rw [← Except.ok.inj h] at hm
    obtain ⟨a, ha, hm⟩ := ok_of_bind hm
    obtain ⟨b, hb, hm⟩ := ok_of_bind hm
    rw [Symbol.shown, if_pos clean.1.1] at ha
    rw [Template.meaning, ok_bind ha, ok_bind (Template.meaning_of_chosen clean.2 hl hb)]
    exact hm
  | .block condition body branches rest, ⟨_, hb, hbs, hrest⟩, r, m, h, hm => by
    obtain ⟨holds, he, h⟩ := ok_of_bind h
    obtain ⟨shown, hs, h⟩ := ok_of_bind h
    obtain ⟨later, hl, h⟩ := ok_of_bind h
    rw [← Except.ok.inj h] at hm
    obtain ⟨x, y, hx, hy, rfl⟩ := shown_append_eq_ok hm
    have applies : (if holds = true then body.meaning data else branches.meaning data) = .ok x := by
      cases holds with
      | true => exact Template.meaning_of_chosen hb hs hx
      | false => exact Branches.meaning_of_chosen hbs hs hx
    rw [Template.meaning, ok_bind he, ok_bind applies,
      ok_bind (Template.meaning_of_chosen hrest hl hy)]
    rfl

theorem Branches.meaning_of_chosen : {bs : Branches} → bs.Clean d → {r : Row} → {m : Text} →
    bs.chosen data = .ok r → r.shown d data = .ok m → bs.meaning data = .ok m
  | .none, _, _, _, h, hm => by
    rw [← Except.ok.inj h] at hm
    exact hm
  | .elseIf condition body later, clean, r, m, h, hm => by
    obtain ⟨holds, he, h⟩ := ok_of_bind h
    rw [Branches.meaning, ok_bind he]
    cases holds with
    | true => exact Template.meaning_of_chosen clean.2.1 h hm
    | false => exact Branches.meaning_of_chosen clean.2.2 h hm
  | .otherwise body later, clean, r, m, h, hm => Template.meaning_of_chosen clean.1 h hm

end

end chosen

end Stencil
