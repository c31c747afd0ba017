import Stencil.Proofs.Search

/-! # The scan for markers

The markers of a text are found from left to right.  The scan goes to the next opening delimiter and
counts how often it is repeated there.  If as many closing delimiters follow in a row somewhere behind
this run, a marker ends at the first place where they do, and the scan goes on behind it.  If they
follow nowhere, the run is literal text, and the scan goes on behind the run.

* `Scanned` states these rules about the places where delimiters stand, and about nothing else.
* `scanned_iff`: the markers of a text are what the rules allow, and the rules allow nothing else.
* `faithful_markersFrom`: so the markers lie apart from each other, each of them is delimited as it
  should be, and no opening delimiter outside of them could have begun another one. -/

namespace Stencil

/-! ### Where a token stands -/

namespace Text

variable {token text front rest : Text} {start i : Nat}

/-- A token stands in a text at a position. -/
def StandsAt (token text : Text) (position : Nat) : Prop := token <+: text.drop position

instance (token text : Text) (position : Nat) : Decidable (StandsAt token text position) :=
  inferInstanceAs (Decidable (token <+: text.drop position))

/-- Of all places from a position on where a token stands, this one is the first. -/
structure FirstAt (token text : Text) (start position : Nat) : Prop where
  le : start ≤ position
  stands : StandsAt token text position
  first : ∀ i, start ≤ i → i < position → ¬ StandsAt token text i

theorem FirstAt.unique {p q : Nat} (hp : FirstAt token text start p)
    (hq : FirstAt token text start q) : p = q := by
  rcases Nat.lt_trichotomy p q with before | same | behind
  · exact absurd hp.stands (hq.first p hp.le before)
  · exact same
  · exact absurd hq.stands (hp.first q hq.le behind)

theorem standsAt_drop (token text : Text) (start i : Nat) :
    StandsAt token (text.drop start) i ↔ StandsAt token text (start + i) := by
  unfold StandsAt
  rw [List.drop_drop]

theorem standsAt_iff :
    StandsAt token text i ↔ text.drop i = token ++ text.drop (i + token.length) := by
  constructor
  · rintro ⟨rest, e⟩
    rw [← List.drop_drop, ← e, List.drop_left]
  · intro e
    exact ⟨_, e.symm⟩

theorem standsAt_append : StandsAt (front ++ rest) text i
    ↔ StandsAt front text i ∧ StandsAt rest text (i + front.length) := by
  constructor
  · intro stands
    have e := standsAt_iff.mp stands
    rw [List.append_assoc] at e
    have behind := congrArg (List.drop front.length) e
    rw [List.drop_drop, List.drop_left] at behind
    exact ⟨⟨_, e.symm⟩, ⟨_, behind.symm⟩⟩
  · rintro ⟨first, second⟩
    refine ⟨text.drop (i + front.length + rest.length), ?_⟩
    rw [List.append_assoc, ← standsAt_iff.mp second, ← standsAt_iff.mp first]

theorem length_of_standsAt (h : token ≠ []) (stands : StandsAt token text i) :
    i + token.length ≤ text.length := by
  have room := stands.length_le
  have := List.length_pos_iff.mpr h
  rw [List.length_drop] at room
  omega

theorem slice_of_standsAt (stands : StandsAt token text i) :
    (text.take (i + token.length)).drop i = token := by
  rw [List.drop_take, standsAt_iff.mp stands, Nat.add_sub_cancel_left, List.take_left]

theorem standsAt_of_slice {stop : Nat} (slice : (text.take stop).drop i = token) :
    StandsAt token text i := by
  rw [List.drop_take] at slice
  exact slice ▸ List.take_prefix ..

/-- In front of the place where a search finds a token, the token stands nowhere. -/
theorem not_standsAt_of_cut? (h : cut? token text = some (front, rest)) (hi : i < front.length) :
    ¬ StandsAt token text i := by
  fun_induction cut? token text generalizing front rest i with
  | case1 =>
    obtain ⟨r, hr, hp⟩ := Option.map_eq_some_iff.mp h
    obtain ⟨rfl, rfl⟩ := Prod.mk.injEq .. ▸ hp
    simp at hi
  | case2 c text r hr =>
    obtain ⟨rfl, rfl⟩ := Prod.mk.injEq .. ▸ Option.some.inj h
    simp at hi
  | case3 c text stops ih =>
    obtain ⟨⟨f, r⟩, hf, hp⟩ := Option.map_eq_some_iff.mp h
    obtain ⟨rfl, rfl⟩ := Prod.mk.injEq .. ▸ hp
    cases i with
    | zero => exact after?_eq_none_iff.mp stops
    | succ i => exact ih hf (Nat.lt_of_succ_lt_succ hi)

theorem not_standsAt_of_cut?_eq_none (h : cut? token text = none) (i : Nat) :
    ¬ StandsAt token text i := by
  fun_induction cut? token text generalizing i with
  | case1 =>
    have stops := after?_eq_none_iff.mp (Option.map_eq_none_iff.mp h)
    unfold StandsAt
    rwa [List.drop_nil]
  | case2 c text r hr => simp at h
  | case3 c text stops ih =>
    cases i with
    | zero => exact after?_eq_none_iff.mp stops
    | succ i => exact ih (Option.map_eq_none_iff.mp h) i

theorem nowhere_of_cut? (h : cut? token (text.drop start) = none) (hi : start ≤ i) :
    ¬ StandsAt token text i := by
  obtain ⟨k, rfl⟩ := Nat.exists_eq_add_of_le hi
  rw [← standsAt_drop]
  exact not_standsAt_of_cut?_eq_none h k

theorem firstAt_of_cut? (h : cut? token (text.drop start) = some (front, rest)) :
    FirstAt token text start (start + front.length)
      ∧ rest = text.drop (start + front.length + token.length) := by
  have e : text.drop (start + front.length) = token ++ rest := by
    rw [← List.drop_drop, eq_of_cut? h, List.append_assoc, List.drop_left]
  refine ⟨⟨Nat.le_add_right .., ⟨rest, e.symm⟩, ?_⟩, ?_⟩
  · intro i hs hi
    obtain ⟨k, rfl⟩ := Nat.exists_eq_add_of_le hs
    rw [← standsAt_drop]
    exact not_standsAt_of_cut? h (by omega)
  · rw [← List.drop_drop, e, List.drop_left]

/-- The copies of a token that are counted stand in a row, and no further one behind them. -/
theorem standsAt_leadingCopies (h : token ≠ []) (e : rest = text.drop start) :
    StandsAt (copies token (leadingCopies token rest).1) text start
      ∧ ¬ StandsAt token text (start + (leadingCopies token rest).1 * token.length)
      ∧ (leadingCopies token rest).2
        = text.drop (start + (leadingCopies token rest).1 * token.length) := by
  have whole := eq_of_leadingCopies token rest
  have behind := congrArg (List.drop (copies token (leadingCopies token rest).1).length) whole
  rw [List.drop_left, length_copies, e, List.drop_drop, ← e] at behind
  refine ⟨⟨_, whole.symm.trans e⟩, ?_, behind.symm⟩
  unfold StandsAt
  rw [behind]
  exact after?_eq_none_iff.mp (after?_leadingCopies h rest)

end Text

open Text

/-! ### Runs and markers -/

/-- So many opening delimiters stand in a row at a position, and no further one behind them. -/
structure Delimiters.OpeningRun (d : Delimiters) (text : Text) (start level : Nat) : Prop where
  level_pos : 1 ≤ level
  stands : StandsAt (copies d.opening level) text start
  ends : ¬ StandsAt d.opening text (start + level * d.opening.length)

/-- An opening run behind which as many closing delimiters in a row come nowhere. -/
structure Delimiters.Unclosed (d : Delimiters) (text : Text) (start level : Nat) : Prop
    extends d.OpeningRun text start level where
  nowhere : ∀ i, start + level * d.opening.length ≤ i → ¬ StandsAt (copies d.closing level) text i

/-- A marker that is delimited in a text as it should be: it starts with an opening run, and it ends
with the first run of as many closing delimiters behind that. -/
structure Marker.Delimited (d : Delimiters) (text : Text) (level : Nat) (m : Marker) : Prop
    extends d.OpeningRun text m.start level where
  stop_le : m.stop ≤ text.length
  source : (text.take m.stop).drop m.start
    = copies d.opening level ++ m.body ++ copies d.closing level
  first : ∀ i, m.start + level * d.opening.length ≤ i →
    i < m.start + level * d.opening.length + m.body.length → ¬ StandsAt (copies d.closing level) text i

section delimited
variable {d : Delimiters} {text : Text} {start level level' : Nat} {m m' : Marker}

theorem Delimiters.OpeningRun.level_le (run : d.OpeningRun text start level)
    (run' : d.OpeningRun text start level') : level' ≤ level := by
  apply Nat.le_of_not_lt
  intro more
  obtain ⟨k, rfl⟩ : ∃ k, level' = level + (k + 1) := ⟨level' - level - 1, by omega⟩
  have stands := run'.stands
  rw [copies_add, standsAt_append, copies_succ, standsAt_append, length_copies] at stands
  exact run.ends stands.2.1

theorem Delimiters.OpeningRun.level_unique (run : d.OpeningRun text start level)
    (run' : d.OpeningRun text start level') : level = level' :=
  Nat.le_antisymm (run'.level_le run) (run.level_le run')

namespace Marker.Delimited

theorem stop_eq (usable : d.usable = true) (h : m.Delimited d text level) : m.stop
    = m.start + level * d.opening.length + m.body.length + level * d.closing.length := by
  have len := congrArg List.length h.source
  have := h.stop_le
  have := Nat.mul_le_mul h.level_pos (Delimiters.length_pos_of_usable usable).1
  simp only [List.length_drop, List.length_take, List.length_append, length_copies] at len
  omega

theorem start_lt_stop (usable : d.usable = true) (h : m.Delimited d text level) :
    m.start < m.stop := by
  have := h.stop_eq usable
  have := Nat.mul_le_mul h.level_pos (Delimiters.length_pos_of_usable usable).1
  omega

theorem closes (h : m.Delimited d text level) :
    FirstAt (copies d.closing level) text (m.start + level * d.opening.length)
      (m.start + level * d.opening.length + m.body.length) := by
  have stands := standsAt_of_slice h.source
  rw [standsAt_append, List.length_append, length_copies, ← Nat.add_assoc] at stands
  exact ⟨Nat.le_add_right .., stands.2, h.first⟩

theorem not_unclosed (h : m.Delimited d text level) : ¬ d.Unclosed text m.start level' := by
  intro unclosed
  obtain rfl := h.level_unique unclosed.toOpeningRun
  exact unclosed.nowhere _ h.closes.le h.closes.stands

/-- No two markers are delimited at the same start. -/
theorem unique (usable : d.usable = true) (h : m.Delimited d text level)
    (h' : m'.Delimited d text level') (same : m.start = m'.start) : m = m' := by
  have stop := h.stop_eq usable
  have stop' := h'.stop_eq usable
  have source := h.source
  obtain ⟨body, s, e⟩ := m
  obtain ⟨body', s', e'⟩ := m'
  obtain rfl : s = s' := same
  obtain rfl := h.level_unique h'.toOpeningRun
  have long := h.closes.unique h'.closes
  obtain rfl : e = e' := by
    simp only at stop stop' long
    omega
  have bodies := source.symm.trans h'.source
  rw [List.append_cancel_right_eq, List.append_cancel_left_eq] at bodies
  exact congrArg (Marker.mk · s e) bodies

end Marker.Delimited

end delimited

/-! ### The rules of the scan -/

/-- The markers that a scan of a text finds from a position on. -/
inductive Scanned (d : Delimiters) (text : Text) : (position : Nat) → List Marker → Prop where
  /-- No opening delimiter comes any more. -/
  | done {position} : (∀ i, position ≤ i → ¬ StandsAt d.opening text i) → Scanned d text position []
  /-- The next opening run is not closed, and the scan goes on behind it. -/
  | skip {position start level ms} : FirstAt d.opening text position start →
      d.Unclosed text start level → Scanned d text (start + level * d.opening.length) ms →
      Scanned d text position ms
  /-- The next opening run is closed, and the scan goes on behind the marker. -/
  | found {position level m ms} : FirstAt d.opening text position m.start →
      m.Delimited d text level → Scanned d text m.stop ms → Scanned d text position (m :: ms)

section steps
variable {d : Delimiters} {text gap inner body rest : Text} {position : Nat}

theorem markersFrom_of_none (h : firstPiece? d (text.drop position) = none) :
    markersFrom d text position = [] := by
  rw [markersFrom, dissect_of_none h]
  rfl

theorem markersFrom_of_some {p : Piece} (h : firstPiece? d (text.drop position) = some (p, rest)) :
    markersFrom d text position
      = ⟨p.body, position + p.gap.length, position + p.gap.length + (p.marker d).length⟩
        :: markersFrom d text (position + p.gap.length + (p.marker d).length) := by
  have e : text.drop (position + p.gap.length + (p.marker d).length) = rest := by
    rw [Nat.add_assoc, ← List.length_append, ← List.drop_drop, (eq_of_firstPiece? h).2.1]
    exact List.drop_left
  rw [markersFrom, dissect_of_some h, markersOf, markersFrom, e]

/-- The opening run at the next opening delimiter. -/
theorem openingRun_of_cut? (usable : d.usable = true)
    (opened : cut? d.opening (text.drop position) = some (gap, inner)) :
    FirstAt d.opening text position (position + gap.length)
      ∧ d.OpeningRun text (position + gap.length) ((leadingCopies d.opening inner).1 + 1)
      ∧ (leadingCopies d.opening inner).2 = text.drop
        (position + gap.length + ((leadingCopies d.opening inner).1 + 1) * d.opening.length) := by
  obtain ⟨first, e⟩ := firstAt_of_cut? opened
  obtain ⟨stands, ends, behind⟩ :=
    standsAt_leadingCopies (Delimiters.usable_iff.mp usable).1 e
  generalize (leadingCopies d.opening inner).1 = n at *
  have shift : position + gap.length + d.opening.length + n * d.opening.length
      = position + gap.length + (n + 1) * d.opening.length := by
    rw [Nat.succ_mul]
    omega
  rw [shift] at ends behind
  refine ⟨first, ⟨Nat.le_add_left 1 n, ?_, ends⟩, behind⟩
  rw [copies_succ]
  exact standsAt_append.mpr ⟨first.stands, stands⟩

theorem markersFrom_of_unclosed (usable : d.usable = true)
    (opened : cut? d.opening (text.drop position) = some (gap, inner))
    (unclosed : cut? (copies d.closing ((leadingCopies d.opening inner).1 + 1))
      (leadingCopies d.opening inner).2 = none) :
    markersFrom d text position = markersFrom d text
      (position + gap.length + ((leadingCopies d.opening inner).1 + 1) * d.opening.length) := by
  obtain ⟨-, -, behind⟩ := openingRun_of_cut? usable opened
  have step := firstPiece?_eq usable (text.drop position)
  rw [opened] at step
  dsimp only at step
  rw [unclosed, behind] at step
  generalize (leadingCopies d.opening inner).1 + 1 = level at *
  -- The skipped run is part of the gap of the next piece, if there is one.
  cases later : firstPiece? d (text.drop (position + gap.length + level * d.opening.length)) with
  | none =>
    rw [later] at step
    rw [markersFrom_of_none later, markersFrom_of_none step]
  | some found =>
    obtain ⟨p, rest⟩ := found
    rw [later] at step
    rw [markersFrom_of_some later, markersFrom_of_some step]
    simp only [Piece.marker, List.length_append, length_copies, Nat.add_assoc]

theorem markersFrom_of_closed (usable : d.usable = true)
    (opened : cut? d.opening (text.drop position) = some (gap, inner))
    (closed : cut? (copies d.closing ((leadingCopies d.opening inner).1 + 1))
      (leadingCopies d.opening inner).2 = some (body, rest)) :
    ∃ m, markersFrom d text position = m :: markersFrom d text m.stop
      ∧ m.start = position + gap.length
      ∧ m.Delimited d text ((leadingCopies d.opening inner).1 + 1) := by
  obtain ⟨-, run, behind⟩ := openingRun_of_cut? usable opened
  have step := firstPiece?_eq usable (text.drop position)
  rw [opened] at step
  dsimp only at step
  rw [closed] at step
  rw [behind] at closed
  generalize (leadingCopies d.opening inner).1 + 1 = level at *
  obtain ⟨closes, -⟩ := firstAt_of_cut? closed
  have stands : StandsAt (Piece.marker d ⟨gap, level, body⟩) text (position + gap.length) := by
    refine standsAt_append.mpr ⟨standsAt_append.mpr ⟨run.stands, ?_⟩, ?_⟩
    · rw [length_copies]
      exact ⟨_, (List.append_assoc .. ▸ eq_of_cut? closed).symm⟩
    · rw [List.length_append, length_copies, ← Nat.add_assoc]
      exact closes.stands
  have nonempty : Piece.marker d ⟨gap, level, body⟩ ≠ [] :=
    List.append_ne_nil_of_left_ne_nil (List.append_ne_nil_of_left_ne_nil
      (copies_ne_nil (Delimiters.usable_iff.mp usable).1 run.level_pos) _) _
  refine ⟨_, markersFrom_of_some step, rfl, run, ?_, ?_, closes.first⟩
  · exact length_of_standsAt nonempty stands
  · exact slice_of_standsAt stands

/-- The markers of a text are found by the rules. -/
theorem scanned_markersFrom (usable : d.usable = true) (text : Text) (position : Nat) :
    Scanned d text position (markersFrom d text position) := by
  -- Every rule goes on behind an opening delimiter, so that less of the text is left.
  induction left : text.length - position using Nat.strongRecOn generalizing position with
  | _ left ih =>
    subst left
    have ho := (Delimiters.usable_iff.mp usable).1
    have wide := (Delimiters.length_pos_of_usable usable).1
    cases opened : cut? d.opening (text.drop position) with
    | none =>
      have nothing : firstPiece? d (text.drop position) = none := by
        rw [firstPiece?_eq usable, opened]
      rw [markersFrom_of_none nothing]
      exact .done fun _ => nowhere_of_cut? opened
    | some parts =>
      obtain ⟨gap, inner⟩ := parts
      obtain ⟨first, run, behind⟩ := openingRun_of_cut? usable opened
      have room := length_of_standsAt ho first.stands
      cases closed : cut? (copies d.closing ((leadingCopies d.opening inner).1 + 1))
          (leadingCopies d.opening inner).2 with
      | none =>
        have longer := Nat.mul_le_mul_right d.opening.length run.level_pos
        rw [markersFrom_of_unclosed usable opened closed]
        rw [behind] at closed
        exact .skip first ⟨run, fun _ => nowhere_of_cut? closed⟩ (ih _ (by omega) _ rfl)
      | some found =>
        obtain ⟨body, rest⟩ := found
        obtain ⟨m, e, starts, delimited⟩ := markersFrom_of_closed usable opened closed
        have := delimited.start_lt_stop usable
        rw [e]
        exact .found (starts ▸ first) delimited (ih _ (by omega) _ rfl)

end steps

section scanned
variable {d : Delimiters} {text : Text} {position : Nat} {ms ms' : List Marker}

/-- The rules leave no choice. -/
theorem Scanned.unique (usable : d.usable = true) (h : Scanned d text position ms)
    (h' : Scanned d text position ms') : ms = ms' := by
  induction h generalizing ms' with
  | done nowhere =>
    cases h' with
    | done => rfl
    | skip first _ _ => exact absurd first.stands (nowhere _ first.le)
    | found first _ _ => exact absurd first.stands (nowhere _ first.le)
  | skip first unclosed _ ih =>
    cases h' with
    | done nowhere => exact absurd first.stands (nowhere _ first.le)
    | skip first' unclosed' later =>
      obtain rfl := first.unique first'
      obtain rfl := unclosed.level_unique unclosed'.toOpeningRun
      exact ih later
    | found first' delimited _ =>
      obtain rfl := first.unique first'
      exact absurd unclosed delimited.not_unclosed
  | found first delimited _ ih =>
    cases h' with
    | done nowhere => exact absurd first.stands (nowhere _ first.le)
    | skip first' unclosed _ =>
      obtain rfl := first.unique first'
      exact absurd unclosed delimited.not_unclosed
    | found first' delimited' later =>
      obtain rfl := delimited.unique usable delimited' (first.unique first')
      rw [ih later]

/-- The markers of a text from a position on are those that the rules allow. -/
theorem scanned_iff (usable : d.usable = true) :
    Scanned d text position ms ↔ ms = markersFrom d text position := by
  constructor
  · intro h
    exact h.unique usable (scanned_markersFrom usable text position)
  · rintro rfl
    exact scanned_markersFrom usable text position

/-! ### What a scan finds and what it passes over -/

theorem Scanned.within (usable : d.usable = true) (h : Scanned d text position ms) :
    ∀ m ∈ ms, position ≤ m.start ∧ m.start < m.stop ∧ m.stop ≤ text.length := by
  induction h with
  | done => exact List.forall_mem_nil _
  | skip first _ _ ih =>
    intro m hm
    have := first.le
    have := ih m hm
    omega
  | found first delimited _ ih =>
    have inside := delimited.start_lt_stop usable
    refine List.forall_mem_cons.mpr ⟨⟨first.le, inside, delimited.stop_le⟩, fun m hm => ?_⟩
    have := first.le
    have := ih m hm
    omega

theorem Scanned.apart (usable : d.usable = true) (h : Scanned d text position ms) :
    ms.Pairwise fun a b => a.stop ≤ b.start := by
  induction h with
  | done => exact .nil
  | skip _ _ _ ih => exact ih
  | found _ _ later ih => exact .cons (fun m hm => (later.within usable m hm).1) ih

theorem Scanned.delimited (h : Scanned d text position ms) :
    ∀ m ∈ ms, ∃ level, m.Delimited d text level := by
  induction h with
  | done => exact List.forall_mem_nil _
  | skip _ _ _ ih => exact ih
  | found _ delimited _ ih => exact List.forall_mem_cons.mpr ⟨⟨_, delimited⟩, ih⟩

/-- An unclosed opening run from a position on that lies outside of some markers. -/
structure PassedOver (d : Delimiters) (text : Text) (position : Nat) (ms : List Marker)
    (start level : Nat) : Prop extends d.Unclosed text start level where
  le : position ≤ start
  outside : ∀ m ∈ ms, m.stop ≤ start ∨ start + level * d.opening.length ≤ m.start

/-- Every opening delimiter begins in a marker or in a run that is passed over. -/
theorem Scanned.complete (usable : d.usable = true) (h : Scanned d text position ms) {i : Nat}
    (hi : position ≤ i) (stands : StandsAt d.opening text i) :
    (∃ m ∈ ms, m.start ≤ i ∧ i < m.stop) ∨ ∃ start level, PassedOver d text position ms start level
      ∧ start ≤ i ∧ i < start + level * d.opening.length := by
  induction h with
  | done nowhere => exact absurd stands (nowhere i hi)
  | @skip position start level ms first unclosed later ih =>
    have reached : start ≤ i := Nat.le_of_not_lt fun before => first.first i hi before stands
    by_cases here : i < start + level * d.opening.length
    · refine .inr ⟨start, level, ⟨unclosed, first.le, fun m hm => .inr ?_⟩, reached, here⟩
      exact (later.within usable m hm).1
    · rcases ih (by omega) with marked | ⟨start', level', passed, inside⟩
      · exact .inl marked
      · have := first.le
        have := passed.le
        exact .inr ⟨start', level', ⟨passed.toUnclosed, by omega, passed.outside⟩, inside⟩
  | @found position level m ms first delimited later ih =>
    have reached : m.start ≤ i := Nat.le_of_not_lt fun before => first.first i hi before stands
    by_cases here : i < m.stop
    · exact .inl ⟨m, List.mem_cons_self, reached, here⟩
    · rcases ih (by omega) with ⟨n, hn, inside⟩ | ⟨start', level', passed, inside⟩
      · exact .inl ⟨n, List.mem_cons_of_mem m hn, inside⟩
      · have := first.le
        have := passed.le
        have := delimited.start_lt_stop usable
        refine .inr ⟨start', level', ⟨passed.toUnclosed, by omega, ?_⟩, inside⟩
        exact List.forall_mem_cons.mpr ⟨.inl passed.le, passed.outside⟩

end scanned

/-- What the markers of a text from a position on have to be like. -/
structure Faithful (d : Delimiters) (text : Text) (position : Nat) (ms : List Marker) : Prop where
  within : ∀ m ∈ ms, position ≤ m.start ∧ m.start < m.stop ∧ m.stop ≤ text.length
  apart : ms.Pairwise fun a b => a.stop ≤ b.start
  delimited : ∀ m ∈ ms, ∃ level, m.Delimited d text level
  complete : ∀ i, position ≤ i → StandsAt d.opening text i →
    (∃ m ∈ ms, m.start ≤ i ∧ i < m.stop) ∨ ∃ start level, PassedOver d text position ms start level
      ∧ start ≤ i ∧ i < start + level * d.opening.length

/-- **The scan is sound and complete**: from every position on it finds markers that are delimited as
they should be, one behind the other, and an opening delimiter that begins in none of them belongs to
a run that is not closed. -/
theorem faithful_markersFrom {d : Delimiters} (usable : d.usable = true) (text : Text)
    (position : Nat) : Faithful d text position (markersFrom d text position) := by
  have scanned := scanned_markersFrom usable text position
  exact ⟨scanned.within usable, scanned.apart usable, scanned.delimited,
    fun _ hi stands => scanned.complete usable hi stands⟩

/-- Tokens that overlap themselves and each other, and between two markers a run that is not closed. -/
theorem faithful_markersFrom_overlapping :
    let d : Delimiters := ⟨['a', 'b', 'a'], ['b', 'c']⟩
    let text := "ababa abaabax bbcbc abaabaaba y bcbc aba z bbc".toList
    d.usable = true ∧ (markersFrom d text 3).map Marker.body = ["x b".toList, " z b".toList]
      ∧ Faithful d text 3 (markersFrom d text 3) := by
  intro d text
  have usable : d.usable = true := by decide
  have found : (markersFrom d text 3).map Marker.body = ["x b".toList, " z b".toList] := by
    decide +kernel
  exact ⟨usable, found, faithful_markersFrom usable text 3⟩

end Stencil
