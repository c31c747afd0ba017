import Stencil.Proofs.Scan
import Stencil.Substitution

/-! # The gaps between the variables

The variable markers of a text cut it into literals.  Putting values in leaves the literals where
they are and writes the text of a value in the place of each variable.  Neither the literals nor the
variables depend on the values, so nothing that a value writes is ever read as a marker.

* `weave_literals`: the literals with the variables between them are the text.
* `substitute_eq_copyFrom`: substitution is one pass over the markers with a cursor.
* `substitute_eq_weave`: the literals with the values between them are what the text becomes.
* `exists_gap`: what lies outside of the variables lies in a gap, all of it in one.
* `interleaved`: so markers that are no variables, and runs that are not closed, are kept. -/

namespace Stencil

open Text

/-! ### Stretches -/

/-- A stretch of a text: the positions where it starts and where it has ended. -/
structure Stretch where
  start : Nat
  stop : Nat
deriving DecidableEq, Repr

namespace Stretch

/-- The characters that a text has there. -/
def of (text : Text) (s : Stretch) : Text := (text.take s.stop).drop s.start

/-- A stretch that is a part of another. -/
def Within (inner outer : Stretch) : Prop := outer.start ≤ inner.start ∧ inner.stop ≤ outer.stop

section of
variable {text : Text} {start middle stop : Nat}

theorem of_append_drop (h : start ≤ middle) :
    of text ⟨start, middle⟩ ++ text.drop middle = text.drop start := by
  obtain ⟨n, rfl⟩ := Nat.exists_eq_add_of_le h
  rw [of, List.drop_take, Nat.add_sub_cancel_left, ← List.drop_drop, List.take_append_drop]

theorem of_append_of (h : start ≤ middle) (h' : middle ≤ stop) :
    of text ⟨start, middle⟩ ++ of text ⟨middle, stop⟩ = of text ⟨start, stop⟩ := by
  have whole : of (text.take stop) ⟨start, middle⟩ ++ (text.take stop).drop middle
      = (text.take stop).drop start := of_append_drop h
  rwa [of, List.take_take, Nat.min_eq_left h'] at whole

@[simp] theorem of_self (text : Text) (start : Nat) : of text ⟨start, start⟩ = [] := by
  rw [of, List.drop_take, Nat.sub_self, List.take_zero]

theorem of_length (text : Text) (start : Nat) : of text ⟨start, text.length⟩ = text.drop start := by
  rw [of, List.take_length]

/-- What a text begins with from a position on, and what is left of the text behind it. -/
theorem of_front {front rest : Text} (left : text.drop start = front ++ rest) :
    of text ⟨start, start + front.length⟩ = front ∧ text.drop (start + front.length) = rest := by
  refine ⟨slice_of_standsAt ⟨rest, left.symm⟩, ?_⟩
  rw [← List.drop_drop, left, List.drop_left]

/-- A part of a stretch is found in it, unchanged. -/
theorem Within.infix_of {inner outer : Stretch} (h : inner.Within outer) (text : Text) :
    inner.of text <:+: outer.of text := by
  have later : (text.take outer.stop).drop inner.start <:+ outer.of text :=
    List.drop_suffix_drop_left _ h.1
  have shorter : inner.of text <+: (text.take outer.stop).drop inner.start := by
    rw [of, ← Nat.min_eq_left h.2, ← List.take_take, List.drop_take]
    exact List.take_prefix ..
  exact shorter.isInfix.trans later.isInfix

end of
end Stretch

/-! ### Literals and variables -/

namespace Marker

/-- Where the marker stands. -/
def stretch (m : Marker) : Stretch := ⟨m.start, m.stop⟩

/-- The path that a variable marker names. -/
def path (m : Marker) : Text := trim m.body

end Marker

/-- The markers of a text that name a variable, left to right. -/
def variableMarkers (d : Delimiters) (text : Text) : List Marker :=
  (markers d text).filter Marker.isVariable

/-- The stretches in front of, between and behind some markers, from a position on. -/
def gapsFrom (stop : Nat) : (position : Nat) → List Marker → List Stretch
  | position, [] => [⟨position, stop⟩]
  | position, m :: ms => ⟨position, m.start⟩ :: gapsFrom stop m.stop ms

/-- The stretches that the variables of a text leave. -/
def gaps (d : Delimiters) (text : Text) : List Stretch :=
  gapsFrom text.length 0 (variableMarkers d text)

/-- The text of the gaps. -/
def literals (d : Delimiters) (text : Text) : List Text := (gaps d text).map (Stretch.of text)

/-- Literals in turn with other texts, a literal at both ends. -/
def weave : (literals inserted : List Text) → Text
  | [], _ => []
  | literal :: _, [] => literal
  | literal :: literals, text :: inserted => literal ++ text ++ weave literals inserted

theorem length_gapsFrom (stop position : Nat) (ms : List Marker) :
    (gapsFrom stop position ms).length = ms.length + 1 := by
  induction ms generalizing position with
  | nil => rfl
  | cons m ms ih => rw [gapsFrom, List.length_cons, ih, List.length_cons]

/-! ### Markers in order -/

namespace Ordered
variable {stop position position' : Nat} {m m' : Marker} {ms : List Marker}

theorem weaken (ordered : Ordered stop position ms) (h : position' ≤ position) :
    Ordered stop position' ms := by
  cases ordered with
  | nil h1 => exact .nil (Nat.le_trans h h1)
  | cons h1 h2 later => exact .cons (Nat.le_trans h h1) h2 later

theorem filter (keep : Marker → Bool) (ordered : Ordered stop position ms) :
    Ordered stop position (ms.filter keep) := by
  induction ordered with
  | nil h => exact .nil h
  | @cons position m ms h1 h2 _ ih =>
    cases kept : keep m with
    | true => rw [List.filter_cons_of_pos kept]; exact .cons h1 h2 ih
    | false =>
      rw [List.filter_cons_of_neg (by rw [kept]; decide)]
      exact ih.weaken (by omega)

theorem within (ordered : Ordered stop position ms) (h : m ∈ ms) :
    position ≤ m.start ∧ m.start ≤ m.stop ∧ m.stop ≤ stop := by
  induction ordered with
  | nil => exact absurd h List.not_mem_nil
  | @cons position n ms h1 h2 later ih =>
    rcases List.mem_cons.mp h with rfl | h
    · have := later.le
      omega
    · have := ih h
      omega

theorem apart (ordered : Ordered stop position ms) (h : m ∈ ms) (h' : m' ∈ ms) (ne : m ≠ m') :
    m.stop ≤ m'.start ∨ m'.stop ≤ m.start := by
  induction ordered with
  | nil => exact absurd h List.not_mem_nil
  | cons _ _ later ih =>
    rcases List.mem_cons.mp h with rfl | behind
    · exact .inl (later.within ((List.mem_cons.mp h').resolve_left ne.symm)).1
    · rcases List.mem_cons.mp h' with rfl | behind'
      · exact .inr (later.within behind).1
      · exact ih behind behind'

/-- A stretch that no marker touches lies in one of the gaps. -/
theorem exists_gap (ordered : Ordered stop position ms) {s : Stretch} (start_le : position ≤ s.start)
    (le_stop : s.stop ≤ stop) (outside : ∀ m ∈ ms, m.stop ≤ s.start ∨ s.stop ≤ m.start) :
    ∃ gap ∈ gapsFrom stop position ms, s.Within gap := by
  induction ordered with
  | nil => exact ⟨_, List.mem_cons_self, start_le, le_stop⟩
  | cons _ _ _ ih =>
    obtain ⟨here, others⟩ := List.forall_mem_cons.mp outside
    rcases here with behind | inFront
    · obtain ⟨gap, hgap, inside⟩ := ih behind others
      exact ⟨gap, List.mem_cons_of_mem _ hgap, inside⟩
    · exact ⟨_, List.mem_cons_self, start_le, inFront⟩

/-- One behind the other, the markers do not touch. -/
theorem pairwise (ordered : Ordered stop position ms) : ms.Pairwise fun a b => a.stop ≤ b.start := by
  induction ordered with
  | nil => exact .nil
  | cons _ _ later ih => exact .cons (fun _ hm => (later.within hm).1) ih

/-- The gaps lie in order between the ends, and no marker reaches into one of them. -/
theorem within_gapsFrom (ordered : Ordered stop position ms) {gap : Stretch}
    (h : gap ∈ gapsFrom stop position ms) : position ≤ gap.start ∧ gap.start ≤ gap.stop
      ∧ gap.stop ≤ stop ∧ ∀ m ∈ ms, m.stop ≤ gap.start ∨ gap.stop ≤ m.start := by
  induction ordered with
  | nil le =>
    rw [List.mem_singleton.mp h]
    exact ⟨Nat.le_refl _, le, Nat.le_refl _, List.forall_mem_nil _⟩
  | @cons position m ms h1 h2 later ih =>
    have room := later.le
    have inFront : m.start ≤ stop := by omega
    rcases List.mem_cons.mp h with rfl | h
    · refine ⟨Nat.le_refl _, h1, inFront, List.forall_mem_cons.mpr ⟨.inr (Nat.le_refl _), ?_⟩⟩
      intro n hn
      have behind : m.start ≤ n.start := by
        have := (later.within hn).1
        omega
      exact .inr behind
    · obtain ⟨g1, g2, g3, apart⟩ := ih h
      exact ⟨by omega, g2, g3, List.forall_mem_cons.mpr ⟨.inl g1, apart⟩⟩

/-- The gaps with the markers between them are what the text has between the ends. -/
theorem weave_gapsFrom (ordered : Ordered stop position ms) (text : Text) :
    weave ((gapsFrom stop position ms).map (Stretch.of text)) (ms.map fun m => m.stretch.of text)
      = Stretch.of text ⟨position, stop⟩ := by
  induction ordered with
  | nil => rfl
  | @cons position m ms h1 h2 later ih =>
    rw [gapsFrom, List.map_cons, List.map_cons, weave, ih, Marker.stretch,
      Stretch.of_append_of h1 (by omega), Stretch.of_append_of (by omega) later.le]

end Ordered

section gaps
variable {d : Delimiters} {text : Text}

theorem ordered_variableMarkers (d : Delimiters) (text : Text) :
    Ordered text.length 0 (variableMarkers d text) :=
  (ordered_markers d text).filter _

theorem weave_literals (d : Delimiters) (text : Text) :
    weave (literals d text) ((variableMarkers d text).map fun m => m.stretch.of text) = text :=
  ((ordered_variableMarkers d text).weave_gapsFrom text).trans (Stretch.of_length text 0)

/-- What lies outside of the variables of a text lies in one of its gaps. -/
theorem exists_gap {s : Stretch} (le_length : s.stop ≤ text.length)
    (outside : ∀ m ∈ variableMarkers d text, m.stop ≤ s.start ∨ s.stop ≤ m.start) :
    ∃ gap ∈ gaps d text, s.Within gap ∧ s.of text <:+: gap.of text := by
  obtain ⟨gap, hgap, inside⟩ :=
    (ordered_variableMarkers d text).exists_gap (Nat.zero_le _) le_length outside
  exact ⟨gap, hgap, inside, inside.infix_of text⟩

theorem exists_gap_of_not_isVariable {m : Marker} (h : m ∈ markers d text)
    (other : m.isVariable = false) : ∃ gap ∈ gaps d text,
      m.stretch.Within gap ∧ m.stretch.of text <:+: gap.of text := by
  have ordered := ordered_markers d text
  refine exists_gap (ordered.within h).2.2 fun v hv => ?_
  obtain ⟨hv, named⟩ := List.mem_filter.mp hv
  have ne : v ≠ m := by
    rintro rfl
    rw [named] at other
    cases other
  exact ordered.apart hv h ne

theorem exists_gap_of_passedOver {start level : Nat}
    (passed : PassedOver d text 0 (markers d text) start level) :
    let run : Stretch := ⟨start, start + level * d.opening.length⟩
    ∃ gap ∈ gaps d text, run.Within gap ∧ run.of text <:+: gap.of text := by
  have nonempty : copies d.opening level ≠ [] := by
    refine copies_ne_nil ?_ passed.level_pos
    intro empty
    exact passed.ends (empty ▸ List.nil_prefix)
  have room := length_of_standsAt nonempty passed.stands
  rw [length_copies] at room
  intro run
  exact exists_gap room fun m hm => passed.outside m (List.mem_filter.mp hm).1

end gaps

/-! ### Putting values in -/

/-- A pass over markers with a cursor.  A variable has what lies between the cursor and itself copied
and its value written, and the cursor goes behind it; every other marker is passed by. -/
def copyFrom (data : Value) (text : Text) : (cursor : Nat) → List Marker → Except Fault Text
  | cursor, [] => .ok (text.drop cursor)
  | cursor, m :: ms =>
    if m.isVariable then do
      let shown ← Value.shownAt m.path data
      let rest ← copyFrom data text m.stop ms
      return Stretch.of text ⟨cursor, m.start⟩ ++ shown ++ rest
    else copyFrom data text cursor ms

section values
variable {d : Delimiters} {data : Value} {text : Text} {cursor : Nat} {m : Marker} {ms : List Marker}

theorem copyFrom_variable (named : m.isVariable = true) :
    copyFrom data text cursor (m :: ms) = do
      let shown ← Value.shownAt m.path data
      let rest ← copyFrom data text m.stop ms
      return Stretch.of text ⟨cursor, m.start⟩ ++ shown ++ rest := by
  rw [copyFrom, if_pos named]

theorem copyFrom_other (other : m.isVariable = false) :
    copyFrom data text cursor (m :: ms) = copyFrom data text cursor ms := by
  rw [copyFrom, if_neg (by rw [other]; decide)]

/-- The cursor reads off the gaps in front of the variables. -/
theorem copyFrom_eq_weave (data : Value) (text : Text) (cursor : Nat) (ms : List Marker) :
    copyFrom data text cursor ms = do
      let shown ← (ms.filter Marker.isVariable).mapM fun m => Value.shownAt m.path data
      return weave ((gapsFrom text.length cursor (ms.filter Marker.isVariable)).map (Stretch.of text))
        shown := by
  induction ms generalizing cursor with
  | nil => exact congrArg Except.ok (Stretch.of_length text cursor).symm
  | cons m ms ih =>
    cases named : m.isVariable with
    | true =>
      rw [copyFrom_variable named, List.filter_cons_of_pos named, ih]
      simp only [List.mapM_cons, gapsFrom, List.map_cons, weave, bind_assoc, pure_bind]
    | false =>
      rw [copyFrom_other named, List.filter_cons_of_neg (by rw [named]; decide), ih]

theorem substituted_variable {p : Piece} (named : isVariableBody p.body = true) :
    p.substituted d data = do return p.gap ++ (← Value.shownAt p.path data) := by
  rw [Piece.substituted, if_pos named]
  cases Value.shownAt p.path data <;> rfl

theorem substituted_other {p : Piece} (other : isVariableBody p.body = false) :
    p.substituted d data = pure (p.source d) := by
  rw [Piece.substituted, if_neg (by rw [other]; decide)]
  rfl

/-- The pass over the markers of some pieces, with the cursor at or in front of the first of them. -/
theorem copyFrom_markersOf {tail : Text} {pieces : List Piece} {position : Nat}
    (le : cursor ≤ position)
    (left : text.drop position = pieces.flatMap (Piece.source d) ++ tail) :
    copyFrom data text cursor (markersOf d position pieces) = do
      let shown ← pieces.mapM (Piece.substituted d data)
      return Stretch.of text ⟨cursor, position⟩ ++ shown.flatten ++ tail := by
  induction pieces generalizing cursor position with
  | nil =>
    have behind : text.drop position = tail := left
    rw [List.mapM_nil, pure_bind, List.flatten_nil, List.append_nil, ← behind,
      Stretch.of_append_drop le]
    rfl
  | cons p pieces ih =>
    -- The cursor goes behind a variable, but stays in front of any other marker.
    rw [List.flatMap_cons, Piece.source, List.append_assoc, List.append_assoc] at left
    obtain ⟨gap_of, at_marker⟩ := Stretch.of_front left
    obtain ⟨marker_of, behind⟩ := Stretch.of_front at_marker
    have copied : Stretch.of text ⟨cursor, position + p.gap.length⟩
        = Stretch.of text ⟨cursor, position⟩ ++ p.gap := by
      rw [← Stretch.of_append_of le (Nat.le_add_right ..), gap_of]
    cases named : isVariableBody p.body with
    | true =>
      rw [markersOf, copyFrom_variable (m := ⟨_, _, _⟩) named, ih (Nat.le_refl _) behind,
        List.mapM_cons, substituted_variable named]
      simp only [bind_assoc, pure_bind]
      refine bind_congr fun own => bind_congr fun shown => congrArg pure ?_
      rw [copied, Stretch.of_self]
      simp only [List.flatten_cons, List.append_assoc, List.nil_append]
    | false =>
      rw [markersOf, copyFrom_other (m := ⟨_, _, _⟩) named, ih (by omega) behind,
        List.mapM_cons, substituted_other named]
      simp only [bind_assoc, pure_bind]
      refine bind_congr fun shown => congrArg pure ?_
      rw [← Stretch.of_append_of (by omega) (Nat.le_add_right ..), copied, marker_of]
      simp only [Piece.source, List.flatten_cons, List.append_assoc]

/-- Substitution is one pass over the markers of the text. -/
theorem substitute_eq_copyFrom (d : Delimiters) (data : Value) (text : Text) :
    substitute d data text = copyFrom data text 0 (markers d text) := by
  have whole : text.drop 0 = (dissect d text).pieces.flatMap (Piece.source d)
      ++ (dissect d text).tail := (source_dissect d text).symm
  rw [markers, markersFrom, List.drop_zero, copyFrom_markersOf (Nat.le_refl 0) whole,
    Stretch.of_self]
  rfl

theorem substitute_eq_weave (d : Delimiters) (data : Value) (text : Text) :
    substitute d data text = do
      let shown ← (variableMarkers d text).mapM fun m => Value.shownAt m.path data
      return weave (literals d text) shown := by
  rw [substitute_eq_copyFrom, copyFrom_eq_weave]
  rfl

end values

/-- How a text is made of literals and variables in turn, and what substitution makes of it. -/
structure Interleaved (d : Delimiters) (text : Text) : Prop where
  alternate : (literals d text).length = (variableMarkers d text).length + 1
  source : weave (literals d text) ((variableMarkers d text).map fun m => m.stretch.of text) = text
  substituted : ∀ data, substitute d data text = do
    let shown ← (variableMarkers d text).mapM fun m => Value.shownAt m.path data
    return weave (literals d text) shown
  others : ∀ m ∈ markers d text, m.isVariable = false → ∃ gap ∈ gaps d text,
    m.stretch.Within gap ∧ m.stretch.of text <:+: gap.of text
  unclosed : ∀ start level, PassedOver d text 0 (markers d text) start level →
    let run : Stretch := ⟨start, start + level * d.opening.length⟩
    ∃ gap ∈ gaps d text, run.Within gap ∧ run.of text <:+: gap.of text

/-- **Substitution never looks at what it puts in**: literals and variables are those of the text,
whatever the data are, and every variable makes room for the text of its value.  Directives, empty
markers and runs that are not closed stay where they are, each in one literal. -/
theorem interleaved (d : Delimiters) (text : Text) : Interleaved d text where
  alternate := by rw [literals, gaps, List.length_map, length_gapsFrom]
  source := weave_literals d text
  substituted data := substitute_eq_weave d data text
  others _ := exists_gap_of_not_isVariable
  unclosed _ _ := exists_gap_of_passedOver

/-- A value that is written like a marker is not read as one. -/
example :
    let d : Delimiters := ⟨['<'], ['>']⟩
    let data : Value := .mapping [(['a'], .str "<b>".toList), (['b'], .str "</if>".toList)]
    (substitute d data "<< <a><#if a>< b ><> <<".toList).toOption
      = some "<< <b><#if a></if><> <<".toList := by
  intro d data
  decide +kernel

end Stencil
