import Stencil.Proofs.Row.Run

/-! # Directives written on purpose

The bodies of the four directives, with any condition behind the first two, and delimiters that share
no character with them.

* `ofBody?_ifBody` and its siblings: each body is read as the directive that it was written for.
* `Delimiters.Plain.ifBody` and its siblings: each body is clean where its condition is. -/

namespace Stencil

open Text

/-! ### Bodies -/

namespace Directive

def ifBody (condition : Text) : Text := '#' :: 'i' :: 'f' :: ' ' :: condition

def elseIfBody (condition : Text) : Text :=
  '#' :: 'e' :: 'l' :: 's' :: 'e' :: 'i' :: 'f' :: ' ' :: condition

def elseBody : Text := ['#', 'e', 'l', 's', 'e']

def endBody : Text := ['/', 'i', 'f']

theorem ofBody?_ifBody (condition : Text) : ofBody? (ifBody condition) = some ifHeader := rfl

theorem ofBody?_elseIfBody (condition : Text) : ofBody? (elseIfBody condition) = some elseIf := rfl

theorem ofBody?_elseBody : ofBody? elseBody = some otherwise := by decide

theorem ofBody?_endBody : ofBody? endBody = some endIf := by decide

theorem argumentOf_ifBody (condition : Text) : argumentOf (ifBody condition) = trim condition := rfl

theorem argumentOf_elseIfBody (condition : Text) :
    argumentOf (elseIfBody condition) = trim condition := rfl

theorem trimEnd_cons_of_ne {c x : Char} {rest word : Text} (hne : c ≠ x) :
    trimEnd isBlankChar (c :: rest) ≠ x :: word := by
  intro h
  obtain ⟨tail, e, -⟩ := eq_trimEnd_append isBlankChar (c :: rest)
  rw [h] at e
  exact hne (List.cons.inj e).1

theorem startsWithWord_cons_of_ne {c x : Char} {rest word : Text} (hne : x ≠ c) :
    startsWithWord (x :: word) (c :: rest) = false := by
  rw [startsWithWord, after?, if_neg hne]

/-- The body of a variable writes no directive. -/
theorem ofBody?_of_isVariableBody {body : Text} (h : isVariableBody body = true) :
    ofBody? body = none := by
  cases body with
  | nil => simp [isVariableBody] at h
  | cons c rest =>
    simp only [isVariableBody, Bool.and_eq_true, bne_iff_ne, ne_eq] at h
    obtain ⟨hash, slash⟩ := h
    rw [ofBody?, startsWithWord_cons_of_ne (Ne.symm hash), startsWithWord_cons_of_ne (Ne.symm hash)]
    dsimp only
    rw [if_neg (trimEnd_cons_of_ne hash), if_neg (trimEnd_cons_of_ne slash)]
    rfl

end Directive

theorem ne_nil_of_isVariableBody {body : Text} (h : isVariableBody body = true) : body ≠ [] := by
  rintro rfl
  simp [isVariableBody] at h

/-! ### Delimiters without characters of the words -/

/-- Delimiters that can bracket a marker and hold no blank and no character of a directive's word. -/
structure Delimiters.Plain (d : Delimiters) : Prop extends d.Solid where
  words : d.Clean ['#', '/', 'e', 'f', 'i', 'l', 's']

namespace Delimiters

instance (d : Delimiters) : Decidable d.Plain :=
  decidable_of_iff (d.Solid ∧ d.Clean ['#', '/', 'e', 'f', 'i', 'l', 's'])
    ⟨fun ⟨solid, words⟩ => ⟨solid, words⟩, fun h => ⟨h.toSolid, h.words⟩⟩

theorem clean_append {d : Delimiters} {front rest : Text} :
    d.Clean (front ++ rest) ↔ d.Clean front ∧ d.Clean rest := List.forall_mem_append

namespace Plain
variable {d : Delimiters}

/-- A text made of characters of the words and blanks is clean. -/
theorem clean_of_subset (plain : d.Plain) {text : Text}
    (h : text.all (fun c => ['#', '/', 'e', 'f', 'i', 'l', 's'].contains c || isBlankChar c) = true) :
    d.Clean text := by
  intro c hc
  have allowed := List.all_eq_true.mp h c hc
  rw [Bool.or_eq_true] at allowed
  rcases allowed with word | blank
  · exact plain.words c (List.contains_iff_mem.mp word)
  · have single : isBlank [c] = true := by simpa [isBlank] using blank
    exact plain.toSolid.clean single c List.mem_cons_self

theorem ifBody (plain : d.Plain) {condition : Text} (h : d.Clean condition) :
    d.Clean (Directive.ifBody condition) := by
  have word : d.Clean ['#', 'i', 'f', ' '] := plain.clean_of_subset (by decide)
  exact clean_append.mpr ⟨word, h⟩

theorem elseIfBody (plain : d.Plain) {condition : Text} (h : d.Clean condition) :
    d.Clean (Directive.elseIfBody condition) := by
  have word : d.Clean ['#', 'e', 'l', 's', 'e', 'i', 'f', ' '] :=
    plain.clean_of_subset (by decide)
  exact clean_append.mpr ⟨word, h⟩

theorem elseBody (plain : d.Plain) : d.Clean Directive.elseBody :=
  plain.clean_of_subset (by decide)

theorem endBody (plain : d.Plain) : d.Clean Directive.endBody :=
  plain.clean_of_subset (by decide)

end Plain
end Delimiters

end Stencil
