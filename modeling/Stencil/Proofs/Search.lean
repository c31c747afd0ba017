import Stencil.Marker

/-! # What a search finds

The converse of `Stencil.Text.Search`: where a text is put together from a token and parts that do
not hold it, the search takes it apart again.

* `cut?_append` and `leadingCopies_append` read back a token behind other characters and a row of
  copies; `cut?_append_of_some` and `cut?_through` say that the search looks no further than the end
  of what it finds.
* `firstPiece?_cons` and `firstPiece?_marker` say what the first piece of a text is that starts
  with a character that starts no opening delimiter, or with a marker. -/

namespace Stencil

namespace Text

variable {token : Text}

theorem after?_append (token rest : Text) : after? token (token ++ rest) = some rest :=
  after?_eq_some_iff.mpr rfl

theorem after?_eq_none_iff {text : Text} : after? token text = none ↔ ¬ token <+: text := by
  rw [Option.eq_none_iff_forall_ne_some]
  constructor
  · rintro h ⟨rest, e⟩
    exact h rest (after?_eq_some_iff.mpr e.symm)
  · intro h rest found
    exact h ⟨rest, (after?_eq_some_iff.mp found).symm⟩

theorem after?_nil (h : token ≠ []) : after? token [] = none := by
  cases token with
  | nil => exact absurd rfl h
  | cons t token => rfl

theorem head?_ne_of_notMem {c : Char} (h : c ∉ token) : token.head? ≠ some c :=
  fun starts => h (List.mem_of_mem_head? starts)

theorem after?_cons_of_head?_ne (h : token ≠ []) {c : Char} (hc : token.head? ≠ some c)
    (text : Text) : after? token (c :: text) = none := by
  cases token with
  | nil => exact absurd rfl h
  | cons t token =>
    rw [after?, if_neg]
    rintro rfl
    exact hc rfl

theorem cut?_cons_of_head?_ne (h : token ≠ []) {c : Char} (hc : token.head? ≠ some c)
    (text : Text) :
    cut? token (c :: text) = (cut? token text).map fun parts => (c :: parts.1, parts.2) := by
  rw [cut?, after?_cons_of_head?_ne h hc]

theorem cut?_token_append (h : token ≠ []) (rest : Text) :
    cut? token (token ++ rest) = some ([], rest) := by
  have starts := after?_append token rest
  cases token with
  | nil => exact absurd rfl h
  | cons t token =>
    rw [List.cons_append] at starts ⊢
    rw [cut?, starts]

/-- A token is found right behind characters that do not belong to it. -/
theorem cut?_append (h : token ≠ []) (front rest : Text) (hf : ∀ c ∈ front, c ∉ token) :
    cut? token (front ++ (token ++ rest)) = some (front, rest) := by
  induction front with
  | nil => exact cut?_token_append h rest
  | cons c front ih =>
    have later := ih fun x hx => hf x (List.mem_cons_of_mem c hx)
    rw [List.cons_append, cut?_cons_of_head?_ne h (head?_ne_of_notMem (hf c List.mem_cons_self)), later]
    rfl

theorem after?_append_of_some {text rest : Text} (h : after? token text = some rest) (more : Text) :
    after? token (text ++ more) = some (rest ++ more) := by
  rw [after?_eq_some_iff.mp h, List.append_assoc]
  exact after?_append token _

theorem after?_append_of_none {text : Text} (room : token.length ≤ text.length)
    (h : after? token text = none) (more : Text) : after? token (text ++ more) = none := by
  rw [Option.eq_none_iff_forall_ne_some]
  intro rest found
  obtain ⟨later, e, -⟩ | ⟨later, e, -⟩ := List.append_eq_append_iff.mp (after?_eq_some_iff.mp found)
  · have whole : later = [] := by
      rw [e, List.length_append] at room
      exact List.length_eq_zero_iff.mp (by omega)
    rw [e, whole, List.append_nil, after?_eq_some_iff.mpr (List.append_nil text).symm] at h
    simp at h
  · rw [after?_eq_some_iff.mpr e] at h
    simp at h

/-- Neither of two texts is the beginning of the other. -/
def Diverge (token text : Text) : Prop := ¬ token <+: text ∧ ¬ text <+: token

theorem diverge_cons (h : token ≠ []) {c : Char} (hc : c ∉ token) (text : Text) :
    Diverge token (c :: text) := by
  constructor
  · rintro ⟨rest, e⟩
    cases token with
    | nil => exact h rfl
    | cons t token => exact hc ((List.cons.inj e).1 ▸ List.mem_cons_self)
  · exact fun starts => hc (starts.subset List.mem_cons_self)

theorem after?_append_of_diverge {text : Text} (h : Diverge token text) (more : Text) :
    after? token (text ++ more) = none := by
  rw [Option.eq_none_iff_forall_ne_some]
  intro rest found
  have starts : token <+: text ++ more := ⟨rest, (after?_eq_some_iff.mp found).symm⟩
  rcases List.prefix_or_prefix_of_prefix starts (List.prefix_append text more) with shorter | shorter
  · exact h.1 shorter
  · exact h.2 shorter

/-- What stands behind the first occurrence of a token has no say in where it is found. -/
theorem cut?_append_of_some {text front rest : Text} (h : cut? token text = some (front, rest))
    (more : Text) : cut? token (text ++ more) = some (front, rest ++ more) := by
  fun_induction cut? token text generalizing front rest with
  | case1 =>
    obtain ⟨r, hr, hp⟩ := Option.map_eq_some_iff.mp h
    obtain ⟨rfl, rfl⟩ := Prod.mk.injEq .. ▸ hp
    have starts := after?_append_of_some hr more
    rw [List.nil_append] at starts ⊢
    cases more with
    | nil => rw [cut?, starts]; rfl
    | cons c more => rw [cut?, starts]
  | case2 c text r hr =>
    obtain ⟨rfl, rfl⟩ := Prod.mk.injEq .. ▸ Option.some.inj h
    have starts := after?_append_of_some hr more
    rw [List.cons_append] at starts ⊢
    rw [cut?, starts]
  | case3 c text hr ih =>
    obtain ⟨⟨f, r⟩, hf, hp⟩ := Option.map_eq_some_iff.mp h
    obtain ⟨rfl, rfl⟩ := Prod.mk.injEq .. ▸ hp
    have room : token.length ≤ (c :: text).length := by
      have := length_of_cut? hf
      simp only [List.length_cons]
      omega
    have starts := after?_append_of_none room hr more
    rw [List.cons_append] at starts ⊢
    rw [cut?, starts, ih hf]
    rfl

/-- A token is found as well in the text that ends with it. -/
theorem cut?_through {text front rest : Text} (h : cut? token text = some (front, rest)) :
    cut? token (front ++ token) = some (front, []) := by
  fun_induction cut? token text generalizing front rest with
  | case1 =>
    obtain ⟨r, hr, hp⟩ := Option.map_eq_some_iff.mp h
    obtain ⟨rfl, rfl⟩ := Prod.mk.injEq .. ▸ hp
    obtain ⟨rfl, rfl⟩ := List.append_eq_nil_iff.mp (after?_eq_some_iff.mp hr).symm
    rfl
  | case2 c text r hr =>
    obtain ⟨rfl, rfl⟩ := Prod.mk.injEq .. ▸ Option.some.inj h
    rw [List.nil_append]
    cases token with
    | nil => rfl
    | cons t token =>
      have starts := after?_append (t :: token) []
      rw [List.append_nil] at starts
      rw [cut?, starts]
  | case3 c text hr ih =>
    obtain ⟨⟨f, r⟩, hf, hp⟩ := Option.map_eq_some_iff.mp h
    obtain ⟨rfl, rfl⟩ := Prod.mk.injEq .. ▸ hp
    have later : after? token (c :: f ++ token) = none := by
      rw [Option.eq_none_iff_forall_ne_some]
      intro rest' found
      have whole : c :: text = c :: f ++ token ++ r := by
        rw [eq_of_cut? hf]
        simp
      rw [whole, after?_append_of_some found r] at hr
      simp at hr
    rw [List.cons_append] at later ⊢
    rw [cut?, later, ih hf]
    rfl

theorem leadingCopies_of_after?_eq_none (h : token ≠ []) {text : Text}
    (stops : after? token text = none) : leadingCopies token text = (0, text) := by
  rw [leadingCopies, dif_neg h]
  split
  · rename_i rest starts
    rw [stops] at starts
    simp at starts
  · rfl

/-- Behind the leading copies of a token no further copy comes. -/
theorem after?_leadingCopies (h : token ≠ []) (text : Text) :
    after? token (leadingCopies token text).2 = none := by
  fun_induction leadingCopies token text with
  | case1 => contradiction
  | case2 text _ rest starts ih => exact ih
  | case3 text _ stops => exact stops

/-- All copies in a row are counted. -/
theorem leadingCopies_append (h : token ≠ []) (n : Nat) {rest : Text}
    (stops : after? token rest = none) : leadingCopies token (copies token n ++ rest) = (n, rest) := by
  induction n with
  | zero =>
    rw [copies_zero, List.nil_append]
    exact leadingCopies_of_after?_eq_none h stops
  | succ n ih =>
    have starts : after? token (copies token (n + 1) ++ rest) = some (copies token n ++ rest) := by
      rw [copies_succ, List.append_assoc]
      exact after?_append token _
    rw [leadingCopies, dif_neg h]
    split
    · rename_i found hfound
      rw [starts] at hfound
      obtain rfl := Option.some.inj hfound
      rw [ih]
      rfl
    · rename_i hnone
      rw [starts] at hnone
      simp at hnone

theorem copies_add (token : Text) (m n : Nat) :
    copies token (m + n) = copies token m ++ copies token n := by
  rw [copies, ← List.replicate_append_replicate, List.flatten_append]
  rfl

theorem mem_of_mem_copies {c : Char} {n : Nat} (h : c ∈ copies token n) : c ∈ token := by
  obtain ⟨t, ht, hc⟩ := List.mem_flatten.mp h
  rwa [List.eq_of_mem_replicate ht] at hc

theorem copies_ne_nil (h : token ≠ []) {n : Nat} (hn : 1 ≤ n) : copies token n ≠ [] := by
  obtain ⟨m, rfl⟩ : ∃ m, n = m + 1 := ⟨n - 1, by omega⟩
  rw [copies_succ]
  exact List.append_ne_nil_of_left_ne_nil h _

end Text

open Text

variable {d : Delimiters}

/-- The first piece of a text, from the searches for its delimiters. -/
theorem firstPiece?_eq (usable : d.usable = true) (text : Text) :
    firstPiece? d text = match cut? d.opening text with
      | none => none
      | some (gap, inner) =>
        let level := (leadingCopies d.opening inner).1 + 1
        let behind := (leadingCopies d.opening inner).2
        match cut? (copies d.closing level) behind with
        | some (body, rest) => some (⟨gap, level, body⟩, rest)
        | none => (firstPiece? d behind).map fun found =>
            ({ found.1 with gap := gap ++ copies d.opening level ++ found.1.gap }, found.2) := by
  conv => lhs; rw [firstPiece?, dif_pos usable]
  split
  · rename_i found
    rw [found]
  · rename_i found
    exact found ▸ rfl

theorem firstPiece?_nil (usable : d.usable = true) : firstPiece? d [] = none := by
  have nowhere : cut? d.opening [] = none := by
    rw [cut?, after?_nil (Delimiters.usable_iff.mp usable).1]
    rfl
  rw [firstPiece?_eq usable, nowhere]

/-- A character that starts no opening delimiter goes to the gap of the first piece. -/
theorem firstPiece?_cons (usable : d.usable = true) {c : Char} (hc : d.opening.head? ≠ some c)
    (text : Text) :
    firstPiece? d (c :: text)
      = (firstPiece? d text).map fun found => ({ found.1 with gap := c :: found.1.gap }, found.2) := by
  have step := cut?_cons_of_head?_ne (Delimiters.usable_iff.mp usable).1 hc text
  rw [firstPiece?_eq usable, firstPiece?_eq usable text, step]
  cases cut? d.opening text with
  | none => rfl
  | some parts =>
    obtain ⟨gap, inner⟩ := parts
    dsimp only [Option.map_some]
    split <;> simp [Function.comp_def]

/-- A marker at the start of a text is its first piece, if its opening run stops at its body and its
closing run is the first one behind that. -/
theorem firstPiece?_marker (usable : d.usable = true) {level : Nat} (hl : 1 ≤ level) {body : Text}
    (opens : Diverge d.opening (body ++ copies d.closing level))
    (closes : cut? (copies d.closing level) (body ++ copies d.closing level) = some (body, []))
    (rest : Text) :
    firstPiece? d (copies d.opening level ++ body ++ copies d.closing level ++ rest)
      = some (⟨[], level, body⟩, rest) := by
  have ho := (Delimiters.usable_iff.mp usable).1
  obtain ⟨n, rfl⟩ : ∃ n, level = n + 1 := ⟨level - 1, by omega⟩
  have opened : cut? d.opening
      (copies d.opening (n + 1) ++ body ++ copies d.closing (n + 1) ++ rest)
        = some ([], copies d.opening n ++ (body ++ copies d.closing (n + 1) ++ rest)) := by
    rw [copies_succ]
    simpa only [List.append_assoc] using cut?_token_append ho _
  have run := leadingCopies_append ho n (after?_append_of_diverge opens rest)
  have closed : cut? (copies d.closing (n + 1)) (body ++ copies d.closing (n + 1) ++ rest)
      = some (body, rest) := cut?_append_of_some closes rest
  rw [firstPiece?_eq usable, opened]
  simp only [run, closed]

theorem dissect_of_none {text : Text} (h : firstPiece? d text = none) :
    dissect d text = ⟨[], text⟩ := by
  rw [dissect]
  split
  · rfl
  · rename_i found
    rw [h] at found
    simp at found

theorem dissect_of_some {text rest : Text} {p : Piece} (h : firstPiece? d text = some (p, rest)) :
    dissect d text = ⟨p :: (dissect d rest).pieces, (dissect d rest).tail⟩ := by
  rw [dissect]
  split
  · rename_i found
    rw [h] at found
    simp at found
  · rename_i found
    rw [h] at found
    obtain ⟨rfl, rfl⟩ := Prod.mk.injEq .. ▸ Option.some.inj found
    rfl

end Stencil
