import Stencil.Conditional

/-! # Runs

A run takes a text through its passes.  It comes to its end unless a condition that it evaluates on
the way fails.

* `runAsked` lists the conditions that a run evaluates, and `Calm` says that none of them fails.
* `calm_iff`: a run that is calm returns a text, and only such a run does.
* `locate?_outcome`: in the text that a run returns no block is left. -/

namespace Stencil

open Text

/-! ### Outcomes -/

/-- Outcomes can be compared. -/
instance decidableEqOutcome {ε α : Type} [DecidableEq ε] [DecidableEq α] :
    DecidableEq (Except ε α)
  | .ok a, .ok b => decidable_of_iff (a = b) (by simp)
  | .error e, .error f => decidable_of_iff (e = f) (by simp)
  | .ok _, .error _ => .isFalse (by simp)
  | .error _, .ok _ => .isFalse (by simp)

theorem ok_of_bind {ε α β : Type} {x : Except ε α} {f : α → Except ε β} {b : β}
    (h : x >>= f = .ok b) : ∃ a, x = .ok a ∧ f a = .ok b := by
  cases x with
  | error fault => simp [bind, Except.bind] at h
  | ok a => exact ⟨a, rfl, h⟩

theorem ok_of_map {ε α β : Type} {x : Except ε α} {f : α → β} {b : β} (h : x.map f = .ok b) :
    ∃ a, x = .ok a ∧ f a = b := by
  cases x with
  | error fault => simp [Except.map] at h
  | ok a => exact ⟨a, rfl, Except.ok.inj h⟩

theorem ok_bind {ε α β : Type} {x : Except ε α} {a : α} (h : x = .ok a)
    (f : α → Except ε β) : x >>= f = f a := by
  rw [h]
  rfl

/-! ### One step of a run -/

section step
variable {d : Delimiters} {data : Value} {text : Text}

theorem run_of_none (h : pass? d data text = none) : run d data text = ⟨[], .ok text⟩ := by
  rw [run]
  split
  · rfl
  all_goals
    rename_i found
    rw [h] at found
    simp at found

theorem run_of_error {fault : Fault} (h : pass? d data text = some (.error fault)) :
    run d data text = ⟨[], .error fault⟩ := by
  rw [run]
  split
  · rename_i found
    rw [h] at found
    simp at found
  · rename_i found
    rw [h] at found
    simp only [Option.some.injEq, Except.error.injEq] at found
    rw [found]
  · rename_i found
    rw [h] at found
    simp at found

theorem run_of_ok {p : Pass} (h : pass? d data text = some (.ok p)) :
    run d data text = ⟨⟨p, p.apply text⟩ :: (run d data (p.apply text)).steps,
      (run d data (p.apply text)).outcome⟩ := by
  rw [run]
  split
  · rename_i found
    rw [h] at found
    simp at found
  · rename_i found
    rw [h] at found
    simp at found
  · rename_i found
    rw [h] at found
    simp only [Option.some.injEq, Except.ok.injEq] at found
    rw [found]

theorem resolveBlocks_of_none (h : pass? d data text = none) :
    resolveBlocks d data text = .ok text := by
  rw [resolveBlocks, run_of_none h]

theorem resolveBlocks_of_error {fault : Fault} (h : pass? d data text = some (.error fault)) :
    resolveBlocks d data text = .error fault := by
  rw [resolveBlocks, run_of_error h]

theorem resolveBlocks_of_ok {p : Pass} (h : pass? d data text = some (.ok p)) :
    resolveBlocks d data text = resolveBlocks d data (p.apply text) := by
  rw [resolveBlocks, run_of_ok h]
  rfl

theorem pass?_eq_none_iff : pass? d data text = none ↔ Block.locate? d text = none :=
  Option.map_eq_none_iff

end step

/-- **Induction over a run**: along a run that returns a text, what holds of every text without a
block and carries over from the text after a pass to the text before it holds of all. -/
theorem resolveBlocks_induction {d : Delimiters} {data : Value} {out : Text}
    {motive : Text → Prop} (done : Block.locate? d out = none → motive out)
    (pass : ∀ text p, pass? d data text = some (.ok p) →
      resolveBlocks d data (p.apply text) = .ok out → motive (p.apply text) → motive text)
    {text : Text} (h : resolveBlocks d data text = .ok out) : motive text := by
  induction text using run.induct d data with
  | case1 text hp =>
    rw [resolveBlocks_of_none hp, Except.ok.injEq] at h
    subst h
    exact done (pass?_eq_none_iff.mp hp)
  | case2 text fault hp =>
    rw [resolveBlocks_of_error hp] at h
    simp at h
  | case3 text p hp ih =>
    rw [resolveBlocks_of_ok hp] at h
    exact pass text p hp h (ih h)

/-- In the text that a run returns no block is left. -/
theorem locate?_outcome {d : Delimiters} {data : Value} {text out : Text}
    (h : resolveBlocks d data text = .ok out) : Block.locate? d out = none :=
  resolveBlocks_induction (motive := fun _ => Block.locate? d out = none) id
    (fun _ _ _ _ ih => ih) h

/-! ### The conditions of a run -/

/-- The conditions that are evaluated to select one of some sections. -/
def askedOf (data : Value) : List Section → List Text
  | [] => []
  | s :: sections =>
    if s.kind = .otherwise then []
    else s.condition.toList ++ match evaluate s.condition data with
      | .ok false => askedOf data sections
      | _ => []

/-- The conditions that the pass over a text evaluates. -/
def passAsked (d : Delimiters) (data : Value) (text : Text) : List Text :=
  match Block.locate? d text with
  | none => []
  | some b => askedOf data (b.sections text)

/-- The conditions that a run evaluates: those of the pass over each text that it comes to. -/
def runAsked (d : Delimiters) (data : Value) (text : Text) : List Text :=
  (text :: (run d data text).steps.map (·.text)).flatMap (passAsked d data)

/-- Conditions that all have an answer. -/
def Answered (data : Value) (conditions : List Text) : Prop :=
  ∀ c ∈ conditions, ∃ holds, evaluate (some c) data = .ok holds

/-- No condition that a run evaluates fails. -/
def Calm (d : Delimiters) (data : Value) (text : Text) : Prop :=
  Answered data (runAsked d data text)

/-- A section has an answer if its condition has one; an `#else` has no condition to fail. -/
theorem answered_toList {data : Value} (condition : Option Text) :
    Answered data condition.toList ↔ ∃ holds, evaluate condition data = .ok holds := by
  cases condition with
  | none => exact ⟨fun _ => ⟨_, rfl⟩, fun _ c hc => by simp at hc⟩
  | some c => simp [Answered]

theorem select_iff_answered {data : Value} (sections : List Section) :
    (∃ s, select data sections = .ok s) ↔ Answered data (askedOf data sections) := by
  induction sections with
  | nil => exact ⟨fun _ c hc => by simp [askedOf] at hc, fun _ => ⟨none, rfl⟩⟩
  | cons s sections ih =>
    have own : Answered data s.condition.toList ↔ ∃ holds, evaluate s.condition data = .ok holds :=
      answered_toList s.condition
    rw [select, askedOf]
    split
    · exact ⟨fun _ c hc => by simp at hc, fun _ => ⟨_, rfl⟩⟩
    · cases he : evaluate s.condition data with
      | error fault =>
        rw [he] at own
        rw [List.append_nil, own]
        constructor
        · rintro ⟨_, h⟩
          cases h
        · rintro ⟨_, h⟩
          cases h
      | ok holds =>
        have answered : Answered data s.condition.toList := own.mpr ⟨holds, he⟩
        cases holds with
        | true =>
          simp only [List.append_nil]
          exact ⟨fun _ => answered, fun _ => ⟨_, rfl⟩⟩
        | false =>
          simp only [Answered, List.forall_mem_append]
          exact ih.trans ⟨fun h => ⟨answered, h⟩, fun h => h.2⟩

theorem runAsked_of_ok {d : Delimiters} {data : Value} {text : Text} {p : Pass}
    (h : pass? d data text = some (.ok p)) :
    runAsked d data text = passAsked d data text ++ runAsked d data (p.apply text) := by
  rw [runAsked, run_of_ok h]
  rfl

theorem answered_passAsked {d : Delimiters} {data : Value} {text : Text} :
    Answered data (passAsked d data text)
      ↔ ∀ fault, pass? d data text ≠ some (.error fault) := by
  unfold passAsked pass?
  cases Block.locate? d text with
  | none => exact ⟨fun _ _ => by simp, fun _ c hc => by simp at hc⟩
  | some b =>
    dsimp only
    rw [← select_iff_answered, Option.map_some]
    cases select data (b.sections text) with
    | error fault =>
      constructor
      · rintro ⟨s, hs⟩
        simp at hs
      · intro h
        exact absurd rfl (h fault)
    | ok s => exact ⟨fun _ _ => by simp [Except.map], fun _ => ⟨s, rfl⟩⟩

/-- A calm run returns a text, and a run that returns one is calm. -/
theorem calm_iff {d : Delimiters} {data : Value} {text : Text} :
    Calm d data text ↔ ∃ out, resolveBlocks d data text = .ok out := by
  induction text using run.induct d data with
  | case1 text hp =>
    refine ⟨fun _ => ⟨text, resolveBlocks_of_none hp⟩, fun _ => ?_⟩
    rw [Calm, runAsked, run_of_none hp, List.map_nil, List.flatMap_singleton]
    exact answered_passAsked.mpr fun fault => by simp [hp]
  | case2 text fault hp =>
    rw [Calm, runAsked, run_of_error hp, List.map_nil, List.flatMap_singleton,
      answered_passAsked, resolveBlocks_of_error hp]
    constructor
    · intro h
      exact absurd hp (h fault)
    · rintro ⟨out, h⟩
      simp at h
  | case3 text p hp ih =>
    have own : Answered data (passAsked d data text) :=
      answered_passAsked.mpr fun fault => by simp [hp]
    rw [resolveBlocks_of_ok hp, ← ih, Calm, runAsked_of_ok hp, Calm, Answered,
      List.forall_mem_append]
    exact ⟨fun h => h.2, fun h => ⟨own, h⟩⟩

instance (d : Delimiters) (data : Value) (text : Text) : Decidable (Calm d data text) :=
  decidable_of_iff ((resolveBlocks d data text).toBool = true) <| by
    rw [calm_iff]
    cases resolveBlocks d data text with
    | error fault => simp [Except.toBool]
    | ok out => simp [Except.toBool]

end Stencil
