import Stencil.Proofs.Range

/-! # Following paths

The keys of a path are followed one after the other, and each of them leads from the value that is
reached to the next one.  An unknown key leads to what is not there, and so does every key from there
and from null.  Thus a key fails for one reason only: it asks a string, a list or a tuple for an
element, and its index is written with more digits than are read.

* `child_eq_error_iff`: the failure of one key.
* `StopsAt`: the step at which keys fail.  `walk_eq_error_iff`: keys fail exactly if they do so at some
  step; `stopsAt_append`: the step for keys in two parts.
* `resolve_composes`: a path in two parts leads where its second part leads from the value of the first,
  or fails at the same step; and the paths that fail. -/

namespace Stencil

open Text

/-! ### Overlong indexes -/

namespace Text

/-- Nothing but decimal digits, and more of them than are read as a whole number. -/
def IsOverlong (key : Text) : Prop := (∀ c ∈ key, isDecimalDigit c = true) ∧ digitCap < key.length

instance : DecidablePred IsOverlong := fun _ => inferInstanceAs (Decidable (_ ∧ _))

variable {key : Text}

theorem isSome_digitValues?_iff :
    (digitValues? key).isSome = true ↔ key ≠ [] ∧ ∀ c ∈ key, isDecimalDigit c = true := by
  have each : (key.mapM digitValue?).isSome = true ↔ ∀ c ∈ key, isDecimalDigit c = true := by
    induction key with
    | nil => simp
    | cons c key ih =>
      rw [List.mapM_cons, List.forall_mem_cons, ← ih, isDecimalDigit]
      cases digitValue? c <;> cases key.mapM digitValue? <;> simp
  rw [digitValues?]
  cases key with
  | nil => simp
  | cons c key => simpa using each

theorem length_eq_of_digitValues? {digits : List Nat} (read : digitValues? key = some digits) :
    digits.length = key.length := by
  obtain ⟨-, decimal⟩ := isSome_digitValues?_iff.mp (Option.isSome_iff_exists.mpr ⟨digits, read⟩)
  rw [length_of_digitValues? read, digitCount, List.countP_eq_length.mpr decimal]

theorem isOverlong_iff :
    key.IsOverlong ↔ (digitValues? key).isSome = true ∧ digitCap < key.length := by
  rw [isSome_digitValues?_iff]
  constructor
  · rintro ⟨decimal, long⟩
    refine ⟨⟨?_, decimal⟩, long⟩
    rintro rfl
    exact absurd long (by decide)
  · rintro ⟨⟨-, decimal⟩, long⟩
    exact ⟨decimal, long⟩

end Text

namespace Value

variable {key : Text} {keys front back : List Text} {value reached : Value} {fault : Fault} {step : Nat}

/-! ### One key -/

/-- A string, a list or a tuple, which has elements under indexes. -/
def IsRow : Value → Prop
  | str _ | bareword _ | list _ | tuple _ => True
  | _ => False

theorem elementAt_eq_error_iff {items : List Value} :
    elementAt key items = .error fault ↔ key.IsOverlong ∧ fault = .digitLimit (some key.length) := by
  rw [isOverlong_iff, elementAt]
  split
  · rename_i asked
    subst asked
    simp [digitCap]
  · cases read : digitValues? key with
    | none => simp
    | some digits =>
      simp only [wholeNumber, length_eq_of_digitValues? read]
      by_cases long : digitCap < key.length
      · simp [long, bind, Except.bind, eq_comm]
      · simp [long, bind, Except.bind, pure, Except.pure]

/-- A key fails exactly if it is the index of an element and has more digits than are read. -/
theorem child_eq_error_iff : child value key = .error fault
    ↔ value.IsRow ∧ key.IsOverlong ∧ fault = .digitLimit (some key.length) := by
  cases value <;> simp [child, IsRow, elementAt_eq_error_iff]

/-! ### Keys in a row -/

theorem walk_cons : walk (key :: keys) value = child value key >>= walk keys := rfl

/-- Keys fail at a step: those in front of it lead to a value, and from there the key of the step fails. -/
def StopsAt (keys : List Text) (value : Value) (step : Nat) (fault : Fault) : Prop :=
  ∃ reached key, walk (keys.take step) value = .ok reached ∧ keys[step]? = some key
    ∧ child reached key = .error fault

theorem stopsAt_nil : ¬ StopsAt [] value step fault := by
  simp [StopsAt]

theorem stopsAt_zero : StopsAt (key :: keys) value 0 fault ↔ child value key = .error fault := by
  simp [StopsAt, walk, pure, Except.pure]

theorem stopsAt_succ : StopsAt (key :: keys) value (step + 1) fault
    ↔ ∃ next, child value key = .ok next ∧ StopsAt keys next step fault := by
  simp only [StopsAt, List.take_succ_cons, List.getElem?_cons_succ, walk_cons]
  cases child value key <;> simp [bind, Except.bind]

/-- Keys fail exactly if they do so at some step. -/
theorem walk_eq_error_iff : walk keys value = .error fault ↔ ∃ step, StopsAt keys value step fault := by
  induction keys generalizing value with
  | nil => simp [stopsAt_nil, walk, pure, Except.pure]
  | cons key keys ih =>
    rw [walk_cons, ← Nat.or_exists_add_one, stopsAt_zero]
    simp only [stopsAt_succ]
    cases child value key with
    | error other => simp [bind, Except.bind]
    | ok next => simpa [bind, Except.bind] using ih

/-- Keys in two parts fail where the first part does, or where the second part does from the value of
the first. -/
theorem stopsAt_append : StopsAt (front ++ back) value step fault ↔ StopsAt front value step fault
    ∨ ∃ reached later, walk front value = .ok reached ∧ step = front.length + later
      ∧ StopsAt back reached later fault := by
  induction front generalizing value step with
  | nil => simp [stopsAt_nil, walk, pure, Except.pure]
  | cons key front ih =>
    cases step with
    | zero =>
      -- the step of a later part is never the first one
      have first (later : Nat) : ¬ 0 = (key :: front).length + later := by
        rw [List.length_cons]
        omega
      rw [List.cons_append, stopsAt_zero, stopsAt_zero]
      simp only [first, false_and, and_false, exists_false, or_false]
    | succ step =>
      have shift (later : Nat) :
          step + 1 = (key :: front).length + later ↔ step = front.length + later := by
        rw [List.length_cons]
        omega
      rw [List.cons_append, stopsAt_succ, stopsAt_succ, walk_cons]
      cases child value key with
      | error other => simp [bind, Except.bind]
      | ok next => simp only [bind, Except.bind, ih, shift, Except.ok.injEq, exists_eq_left']

/-- **Paths compose, and fail for one reason only.**  A path in two parts leads where its second part
leads from the value of the first.  It fails at the step where its first part does, or at the step
where its second part does from there.  A path fails exactly if some of its first keys, or none of them,
lead to a string, a list or a tuple, and the next key is an index with more digits than are read. -/
theorem resolve_composes (path rest : Text) (data : Value) :
    resolve (path ++ '.' :: rest) data = (resolve path data >>= resolve rest)
      ∧ (∀ step fault, StopsAt (splitOn '.' (path ++ '.' :: rest)) data step fault
        ↔ StopsAt (splitOn '.' path) data step fault
          ∨ ∃ reached later, resolve path data = .ok reached
            ∧ step = (splitOn '.' path).length + later
            ∧ StopsAt (splitOn '.' rest) reached later fault)
      ∧ ∀ fault, resolve path data = .error fault ↔ ∃ step reached key,
        walk ((splitOn '.' path).take step) data = .ok reached ∧ (splitOn '.' path)[step]? = some key
          ∧ reached.IsRow ∧ key.IsOverlong ∧ fault = .digitLimit (some key.length) := by
  refine ⟨resolve_append path rest data, fun step fault => ?_, fun fault => ?_⟩
  · rw [splitOn_append, stopsAt_append]
    rfl
  · rw [resolve, walk_eq_error_iff]
    simp only [StopsAt, child_eq_error_iff]

end Value
end Stencil
