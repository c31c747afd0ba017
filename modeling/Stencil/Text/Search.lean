/-! # Searching for a token

A text is a list of characters, so positions and lengths count characters.

* `Text.after?` strips a leading token, `Text.cut?` cuts at the first occurrence of a token, and
  `Text.leadingCopies` counts the copies of a token that a text starts with.
* `after?_eq_some_iff`, `eq_of_cut?` and `eq_of_leadingCopies` say that nothing is lost: the parts
  put together again are the text. -/

namespace Stencil

/-- A text is the list of its characters. -/
abbrev Text := List Char

namespace Text

/-! ### Definitions -/

/-- What follows a leading token, if the text starts with it. -/
def after? : (token text : Text) → Option Text
  | [], text => some text
  | _ :: _, [] => none
  | t :: token, c :: text => if t = c then after? token text else none

/-- Cuts a text at the first occurrence of a token into what stands before and after it. -/
def cut? (token : Text) : (text : Text) → Option (Text × Text)
  | [] => (after? token []).map fun rest => ([], rest)
  | c :: text =>
    match after? token (c :: text) with
    | some rest => some ([], rest)
    | none => (cut? token text).map fun parts => (c :: parts.1, parts.2)

/-- The parts of a text between the occurrences of a character. -/
def splitOn (separator : Char) : Text → List Text
  | [] => [[]]
  | c :: text =>
    if c = separator then [] :: splitOn separator text
    else
      match splitOn separator text with
      | [] => [[c]]
      | part :: parts => (c :: part) :: parts

/-- `n` copies of a token in a row. -/
def copies (token : Text) (n : Nat) : Text := (List.replicate n token).flatten

theorem after?_eq_some_iff {token text rest : Text} :
    after? token text = some rest ↔ text = token ++ rest := by
  fun_induction after? token text with
  | case1 text => simp [eq_comm]
  | case2 t token => simp
  | case3 t token text ih => simp [ih]
  | case4 t token c text hne => simp [Ne.symm hne]

theorem length_of_after? {token text rest : Text} (h : after? token text = some rest) :
    text.length = token.length + rest.length := by
  rw [after?_eq_some_iff.mp h, List.length_append]

/-- The number of copies of a token that a text starts with, and what follows them.  An empty
token counts as absent. -/
def leadingCopies (token text : Text) : Nat × Text :=
  if _ : token = [] then (0, text)
  else
    match _ : after? token text with
    | some rest => (leadingCopies token rest).map (· + 1) id
    | none => (0, text)
termination_by text.length
decreasing_by
  have := length_of_after? ‹after? token text = some rest›
  have := List.length_pos_iff.mpr ‹¬token = []›
  omega

/-! ### Nothing is lost -/

theorem copies_zero (token : Text) : copies token 0 = [] := rfl

theorem copies_succ (token : Text) (n : Nat) : copies token (n + 1) = token ++ copies token n := by
  simp [copies, List.replicate_succ]

@[simp] theorem length_copies (token : Text) (n : Nat) :
    (copies token n).length = n * token.length := by
  simp [copies]

theorem eq_of_cut? {token text front rest : Text} (h : cut? token text = some (front, rest)) :
    text = front ++ token ++ rest := by
  fun_induction cut? token text generalizing front rest with
  | case1 =>
    obtain ⟨r, hr, hp⟩ := Option.map_eq_some_iff.mp h
    obtain ⟨rfl, rfl⟩ := Prod.mk.injEq .. ▸ hp
    simpa using after?_eq_some_iff.mp hr
  | case2 c text r hr =>
    obtain ⟨rfl, rfl⟩ := Prod.mk.injEq .. ▸ Option.some.inj h
    simpa using after?_eq_some_iff.mp hr
  | case3 c text _ ih =>
    obtain ⟨⟨a, b⟩, hab, hp⟩ := Option.map_eq_some_iff.mp h
    obtain ⟨rfl, rfl⟩ := Prod.mk.injEq .. ▸ hp
    simp [ih hab]

theorem length_of_cut? {token text front rest : Text} (h : cut? token text = some (front, rest)) :
    text.length = front.length + token.length + rest.length := by
  simp [eq_of_cut? h, Nat.add_assoc]

theorem eq_of_leadingCopies (token text : Text) :
    text = copies token (leadingCopies token text).1 ++ (leadingCopies token text).2 := by
  fun_induction leadingCopies token text with
  | case1 => simp [copies_zero]
  | case2 text _ rest starts ih =>
    rw [Prod.map_fst, Prod.map_snd, copies_succ, List.append_assoc, id, ← ih]
    exact after?_eq_some_iff.mp starts
  | case3 => simp [copies_zero]

theorem length_leadingCopies (token text : Text) :
    text.length
      = (leadingCopies token text).1 * token.length + (leadingCopies token text).2.length := by
  have h := congrArg List.length (eq_of_leadingCopies token text)
  simpa using h

end Text
end Stencil
