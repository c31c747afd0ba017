import Stencil.Command.Plan
import Stencil.Proofs.Escapes
import Stencil.Proofs.Spelling

/-! # Written data are read back

The writer goes down into the containers, while the reader goes through the text once and holds the open
containers on its stack.  So a value is read back in front of everything that can follow it and inside any
open containers: the reader then delivers it to them.  This carries over from the elements of a container to
the container, whose elements the reader collects one after the other.

Doubles and tuples are left out, as are two fields of one name: some of their texts are those of other values.

* `readNumber_integerText`: integers of as many digits as are read.
* `ReadsBack`: how a value is read back.  `readsBack_list` and `readsBack_mapping` are its steps.
* `read_write`: a text of its own gives back the value that was written.
* `Representable.isWritable`: these values can be written.
* `context_shown`: a mapping that is put into a text can be given to the program as data. -/

namespace Stencil

open Text

namespace Json

/-! ### Integers -/

section numbers
variable {c : Char} {text rest : Text} {n : Int} {m : Nat}

/-- What follows a value: the end, a comma or a closing bracket. -/
def Closed (rest : Text) : Prop := ∀ c ∈ rest.head?, c = ',' ∨ c = ']' ∨ c = '\x7d'

/-- A number is written with a digit in front, which is no zero unless the number is zero. -/
theorem exists_toDigits (m : Nat) :
    ∃ c text, Nat.toDigits 10 m = c :: text ∧ c.isDigit = true ∧ (m ≠ 0 → c ≠ '0') := by
  induction m using Nat.strongRecOn with
  | _ m ih =>
    by_cases small : m < 10
    · have digit : ∀ d, d < 10 → d.digitChar.isDigit = true ∧ (d ≠ 0 → d.digitChar ≠ '0') := by
        decide
      exact ⟨_, [], Nat.toDigits_of_lt_base small, digit m small⟩
    · obtain ⟨c, text, e, digit, first⟩ := ih (m / 10) (by omega)
      refine ⟨c, text ++ [(m % 10).digitChar], ?_, digit, fun _ => first (by omega)⟩
      rw [Nat.toDigits_of_base_le (by omega) (by omega), e, List.cons_append]

theorem readDigits_append (digits : ∀ c ∈ text, c.isDigit = true) (closed : Closed rest) :
    readDigits (text ++ rest) = (text.map (·.toNat - 48), rest) := by
  have stop : rest.takeWhile Char.isDigit = [] ∧ rest.dropWhile Char.isDigit = rest := by
    cases rest with
    | nil => exact ⟨rfl, rfl⟩
    | cons c rest => rcases closed c rfl with rfl | rfl | rfl <;> exact ⟨rfl, rfl⟩
  rw [readDigits, List.takeWhile_append_of_pos digits, List.dropWhile_append_of_pos digits, stop.1,
    stop.2, List.append_nil]

theorem readWhole_toDigits (closed : Closed rest) :
    readWhole (Nat.toDigits 10 m ++ rest) = (decimalDigits m, rest) := by
  by_cases zero : m = 0
  · subst zero
    rfl
  · obtain ⟨c, text, e, -, first⟩ := exists_toDigits m
    have read : readWhole (Nat.toDigits 10 m ++ rest) = readDigits (Nat.toDigits 10 m ++ rest) := by
      rw [e, List.cons_append, readWhole.eq_def]
      split
      · rename_i same
        exact absurd (List.cons.inj same).1 (first zero)
      · rfl
    rw [read]
    exact readDigits_append (fun _ => isDigit_of_mem_toDigits) closed

theorem readFraction_of_closed (closed : Closed rest) : readFraction rest = (none, rest) := by
  cases rest with
  | nil => rfl
  | cons c rest => rcases closed c rfl with rfl | rfl | rfl <;> rfl

theorem readExponent_of_closed (closed : Closed rest) : readExponent rest = (none, rest) := by
  cases rest with
  | nil => rfl
  | cons c rest => rcases closed c rfl with rfl | rfl | rfl <;> rfl

theorem readNumber_integerText (few : (Nat.toDigits 10 n.natAbs).length ≤ digitCap)
    (closed : Closed rest) : readNumber (integerText n ++ rest) = .ok (.int n, rest) := by
  have number : Value.ofNumeral (.ofInt n) = .ok (.int n) :=
    Value.ofNumeral_ofInt (by rwa [decimalDigits, List.length_map])
  obtain ⟨d, digits, e⟩ := List.exists_cons_of_ne_nil (decimalDigits_ne_nil n.natAbs)
  have whole : readWhole (Nat.toDigits 10 n.natAbs ++ rest) = (d :: digits, rest) :=
    e ▸ readWhole_toDigits closed
  rw [Numeral.ofInt, e] at number
  rw [integerText]
  split
  · rename_i negative
    rw [decide_eq_true negative] at number
    simp only [List.cons_append, readNumber, whole, readFraction_of_closed closed,
      readExponent_of_closed closed, number]
  · rename_i positive
    -- the reader looks for a minus first, which a digit is not
    obtain ⟨c, text, e', digit, -⟩ := exists_toDigits n.natAbs
    have unsigned : c ≠ '-' := by
      rintro rfl
      exact absurd digit (by decide)
    rw [decide_eq_false positive] at number
    rw [e', List.cons_append] at whole ⊢
    rw [readNumber.eq_def]
    split
    rename_i sign unsigned_text h
    split at h
    · rename_i same
      exact absurd (List.cons.inj same).1 unsigned
    · cases h
      simp only [whole, readFraction_of_closed closed, readExponent_of_closed closed, number]

theorem readWord?_of_isDigit (digit : c.isDigit = true) :
    readWord? (c :: text) = none ∧ readWord? ('-' :: c :: text) = none := by
  have other (x : Char) (hx : x.isDigit = false) : x ≠ c := by
    rintro rfl
    exact Bool.false_ne_true (hx.symm.trans digit)
  constructor <;> simp [readWord?, words, after?, other 'n' rfl, other 't' rfl, other 'f' rfl,
    other 'N' rfl, other 'I' rfl, other '-' rfl]

theorem readOpening_integerText (few : (Nat.toDigits 10 n.natAbs).length ≤ digitCap)
    (closed : Closed rest) : readOpening (integerText n ++ rest) = .ok (.scalar (.int n), rest) := by
  have number (text : Text) (first : ∀ c ∈ text.head?, c.isDigit = true ∨ c = '-')
      (no_word : readWord? text = none) (read : readNumber text = .ok (.int n, rest)) :
      readOpening text = .ok (.scalar (.int n), rest) := by
    rw [readOpening.eq_def]
    split
    · exact absurd (first '"' rfl) (by decide)
    · exact absurd (first '\x7b' rfl) (by decide)
    · exact absurd (first '[' rfl) (by decide)
    · rw [no_word, read]
      rfl
  have read := readNumber_integerText few closed
  obtain ⟨c, text, e, digit, -⟩ := exists_toDigits n.natAbs
  by_cases negative : n < 0
  · rw [integerText, if_pos negative, e] at read ⊢
    exact number _ (by simp) (readWord?_of_isDigit digit).2 read
  · rw [integerText, if_neg negative, e] at read ⊢
    exact number _ (by simp [digit]) (readWord?_of_isDigit digit).1 read

end numbers

/-! ### Equations of the reader -/

section reader
variable {stack : List Frame} {done : List (Text × Value)} {items : List Value} {name text inner rest : Text}
  {v : Value}

theorem readValue_eq (stack : List Frame) (text : Text) : readValue stack text
    = match readOpening text with
      | .error e => .error e
      | .ok (.scalar v, rest) => deliver stack v rest
      | .ok (.array, inner) =>
        match after? [']'] (skipSpace inner) with
        | some rest => deliver stack (.list []) rest
        | none => readValue (.items [] :: stack) (skipSpace inner)
      | .ok (.object, inner) =>
        match after? ['\x7d'] (skipSpace inner) with
        | some rest => deliver stack (.mapping []) rest
        | none => readField stack [] (skipSpace inner) := by
  rw [readValue]
  split <;> rename_i opened
  · simp only [opened]
  · simp only [opened]
  · split <;> rename_i closed <;> simp only [opened, closed]
  · split <;> rename_i closed <;> simp only [opened, closed]

theorem readField_eq (stack : List Frame) (done : List (Text × Value)) (text : Text) :
    readField stack done text = match readName text with
      | .error e => .error e
      | .ok (name, rest) => readValue (.fields done name :: stack) rest := by
  rw [readField]
  split <;> rename_i named <;> rw [named]

theorem deliver_nil : deliver [] v text = .ok (v, text) := by
  rw [deliver]

theorem deliver_items_eq (stack : List Frame) (items : List Value) (v : Value) (text : Text) :
    deliver (.items items :: stack) v text = match skipSpace text with
      | ']' :: rest => deliver stack (.list (v :: items).reverse) rest
      | ',' :: rest => readValue (.items (v :: items) :: stack) (skipSpace rest)
      | rest => .error (.malformed .noComma rest.length) := by
  rw [deliver]
  split <;> rename_i e <;> simp only [e]

theorem deliver_fields_eq (stack : List Frame) (done : List (Text × Value)) (name : Text) (v : Value)
    (text : Text) : deliver (.fields done name :: stack) v text = match skipSpace text with
      | '\x7d' :: rest => deliver stack (.mapping (Value.setField name v done)) rest
      | ',' :: rest => readField stack (Value.setField name v done) (skipSpace rest)
      | rest => .error (.malformed .noComma rest.length) := by
  rw [deliver]
  split <;> rename_i e <;> simp only [e]

theorem deliver_items_next : deliver (.items items :: stack) v (',' :: ' ' :: text)
    = readValue (.items (v :: items) :: stack) (skipSpace text) := by
  rw [deliver_items_eq]
  rfl

theorem deliver_items_last : deliver (.items items :: stack) v (']' :: rest)
    = deliver stack (.list (v :: items).reverse) rest := by
  rw [deliver_items_eq]
  rfl

theorem deliver_fields_next : deliver (.fields done name :: stack) v (',' :: ' ' :: text)
    = readField stack (Value.setField name v done) (skipSpace text) := by
  rw [deliver_fields_eq]
  rfl

theorem deliver_fields_last : deliver (.fields done name :: stack) v ('\x7d' :: rest)
    = deliver stack (.mapping (Value.setField name v done)) rest := by
  rw [deliver_fields_eq]
  rfl

end reader

/-! ### Reading what is written -/

theorem writeItems_cons (item next : Value) (items : List Value) : writeItems (item :: next :: items)
    = write item ++ ',' :: ' ' :: writeItems (next :: items) := by
  rw [writeItems]
  nofun

theorem writeFields_cons (field next : Text × Value) (fields : List (Text × Value)) :
    writeFields (field :: next :: fields) = writeString field.1 ++ ':' :: ' ' :: write field.2
      ++ ',' :: ' ' :: writeFields (next :: fields) := by
  rw [writeFields]
  nofun

/-- The values that JSON tells from all others: without doubles and tuples, and with different keys in
each mapping. -/
inductive Representable : Value → Prop
  | null : Representable .null
  | bool (b : Bool) : Representable (.bool b)
  | int {n : Int} : (Nat.toDigits 10 n.natAbs).length ≤ digitCap → Representable (.int n)
  | str (s : Text) : Representable (.str s)
  | list {items : List Value} : (∀ v ∈ items, Representable v) → Representable (.list items)
  | mapping {fields : List (Text × Value)} : (fields.map Prod.fst).Nodup →
      (∀ field ∈ fields, Representable field.2) → Representable (.mapping fields)

/-- A text that starts with neither a space nor a closing bracket nor a byte order mark. -/
def Visible (text : Text) : Prop :=
  ∃ c rest, text = c :: rest ∧ c ∉ [' ', '\t', '\n', '\r', ']', '\x7d', '\uFEFF']

/-- A value that is read back from what is written for it, inside any containers and in front of
everything that can follow. -/
structure ReadsBack (v : Value) : Prop where
  visible : Visible (write v)
  read : ∀ stack rest, Closed rest → readValue stack (write v ++ rest) = deliver stack v rest

section values
variable {stack : List Frame} {done fields : List (Text × Value)} {items : List Value} {name text rest : Text}
  {v : Value}

theorem skipSpace_of_visible (h : Visible text) (rest : Text) :
    skipSpace (text ++ rest) = text ++ rest := by
  obtain ⟨c, text, rfl, visible⟩ := h
  have word : isSpace c = false := by
    simp only [List.mem_cons, not_or] at visible
    simp [isSpace, visible]
  simp [skipSpace, word]

theorem after?_of_visible (h : Visible text) :
    after? [']'] text = none ∧ after? ['\x7d'] text = none := by
  obtain ⟨c, text, rfl, visible⟩ := h
  simp only [List.mem_cons, not_or] at visible
  simp [after?, Ne.symm visible.2.2.2.2.1, Ne.symm visible.2.2.2.2.2.1]

theorem visible_append (h : Visible text) (rest : Text) : Visible (text ++ rest) := by
  obtain ⟨c, text, rfl, visible⟩ := h
  exact ⟨c, text ++ rest, rfl, visible⟩

theorem readsBack_scalar (visible : Visible (write v))
    (h : ∀ rest, Closed rest → readOpening (write v ++ rest) = .ok (.scalar v, rest)) : ReadsBack v := by
  refine ⟨visible, fun stack rest closed => ?_⟩
  rw [readValue_eq, h rest closed]

theorem readsBack_null : ReadsBack .null := by
  refine readsBack_scalar ⟨'n', _, rfl, by decide⟩ fun rest _ => ?_
  rfl

theorem readsBack_bool (b : Bool) : ReadsBack (.bool b) := by
  cases b with
  | true => exact readsBack_scalar ⟨'t', _, rfl, by decide⟩ fun rest _ => rfl
  | false => exact readsBack_scalar ⟨'f', _, rfl, by decide⟩ fun rest _ => rfl

theorem readsBack_int {n : Int} (few : (Nat.toDigits 10 n.natAbs).length ≤ digitCap) :
    ReadsBack (.int n) := by
  refine readsBack_scalar ?_ fun rest closed => readOpening_integerText few closed
  have no_digit : ∀ c ∈ [' ', '\t', '\n', '\r', ']', '\x7d', '\uFEFF'], c.isDigit = false := by
    simp [Char.isDigit]
  obtain ⟨c, text, e, digit, -⟩ := exists_toDigits n.natAbs
  rw [write, integerText, e]
  split
  · exact ⟨'-', _, rfl, by decide⟩
  · exact ⟨c, text, rfl, fun h => Bool.false_ne_true ((no_digit c h).symm.trans digit)⟩

theorem readString_writeString (opened : Nat) (s rest : Text) :
    readString opened (s.flatMap writeChar ++ ['"'] ++ rest) = .ok (s, rest) := by
  rw [List.append_assoc]
  exact readString_written

theorem readsBack_str (s : Text) : ReadsBack (.str s) := by
  refine readsBack_scalar ⟨'"', _, rfl, by decide⟩ fun rest _ => ?_
  rw [write, writeString, List.cons_append, List.cons_append, readOpening, readString_writeString]
  rfl

theorem visible_writeItems {item : Value} (h : ReadsBack item) (items : List Value) :
    Visible (writeItems (item :: items)) := by
  cases items with
  | nil => exact h.visible
  | cons next items => exact visible_append h.visible _

/-- The elements of an array are read one after the other. -/
theorem readValue_writeItems {item : Value} (back : ∀ v ∈ item :: items, ReadsBack v)
    (done : List Value) : readValue (.items done :: stack) (writeItems (item :: items) ++ ']' :: rest)
      = deliver stack (.list (done.reverse ++ item :: items)) rest := by
  -- the stack holds the elements in reverse, so the induction is over those to come, behind any others
  induction items generalizing item done with
  | nil =>
    have closed : Closed (']' :: rest) := by simp [Closed]
    rw [writeItems, (back item List.mem_cons_self).read _ _ closed, deliver_items_last, List.reverse_cons]
  | cons next items ih =>
    obtain ⟨first, later⟩ := List.forall_mem_cons.mp back
    have closed (text : Text) : Closed (',' :: text) := by simp [Closed]
    have visible := visible_writeItems (later next List.mem_cons_self) items
    rw [writeItems_cons, List.append_assoc, List.cons_append, List.cons_append, first.read _ _ (closed _),
      deliver_items_next, skipSpace_of_visible visible, ih later, List.reverse_cons, List.append_assoc,
      List.singleton_append]

theorem readsBack_list (back : ∀ v ∈ items, ReadsBack v) : ReadsBack (.list items) := by
  refine ⟨⟨'[', _, rfl, by decide⟩, fun stack rest _ => ?_⟩
  have opened (text : Text) : readOpening ('[' :: text) = .ok (.array, text) := by rw [readOpening]
  rw [write, List.cons_append, List.cons_append, readValue_eq, opened, List.append_assoc,
    List.singleton_append]
  dsimp only
  cases items with
  | nil => rfl
  | cons item items =>
    have visible := visible_writeItems (back item List.mem_cons_self) items
    rw [skipSpace_of_visible visible, (after?_of_visible (visible_append visible _)).1]
    exact readValue_writeItems back []

/-! ### Mappings -/

theorem setField_of_notMem (h : name ∉ done.map Prod.fst) :
    Value.setField name v done = done ++ [(name, v)] := by
  induction done with
  | nil => rfl
  | cons field done ih =>
    rw [List.map_cons, List.mem_cons, not_or] at h
    rw [Value.setField, if_neg (Ne.symm h.1), ih h.2, List.cons_append]

theorem setField_of_nodup {field : Text × Value} (h : ((done ++ field :: fields).map Prod.fst).Nodup) :
    Value.setField field.1 field.2 done = done ++ [field] := by
  rw [List.map_append, List.nodup_append] at h
  exact setField_of_notMem fun known => h.2.2 _ known _ List.mem_cons_self rfl

/-- A field is read up to its value. -/
theorem readField_written (h : ReadsBack v) (closed : Closed rest) :
    readField stack done (writeString name ++ ':' :: ' ' :: write v ++ rest)
      = deliver (.fields done name :: stack) v rest := by
  have named : readName (writeString name ++ ':' :: ' ' :: write v ++ rest)
      = .ok (name, write v ++ rest) := by
    rw [writeString, List.append_assoc, List.cons_append, List.cons_append, readName,
      readString_writeString]
    exact congrArg (fun text => Except.ok (name, text)) (skipSpace_of_visible h.visible rest)
  rw [readField_eq, named]
  exact h.read _ _ closed

theorem visible_writeFields (field : Text × Value) (fields : List (Text × Value)) :
    Visible (writeFields (field :: fields)) := by
  have quoted : Visible (writeString field.1) := ⟨'"', _, rfl, by decide⟩
  cases fields with
  | nil => exact visible_append quoted _
  | cons next fields =>
    rw [writeFields_cons, List.append_assoc]
    exact visible_append quoted _

/-- The fields of an object are read one after the other, if their names are new. -/
theorem readField_writeFields {field : Text × Value} (back : ∀ f ∈ field :: fields, ReadsBack f.2)
    (fresh : ((done ++ field :: fields).map Prod.fst).Nodup) :
    readField stack done (writeFields (field :: fields) ++ '\x7d' :: rest)
      = deliver stack (.mapping (done ++ field :: fields)) rest := by
  induction fields generalizing field done with
  | nil =>
    have closed : Closed ('\x7d' :: rest) := by simp [Closed]
    rw [writeFields, readField_written (back field List.mem_cons_self) closed, deliver_fields_last,
      setField_of_nodup fresh]
  | cons next fields ih =>
    obtain ⟨first, later⟩ := List.forall_mem_cons.mp back
    have closed (text : Text) : Closed (',' :: text) := by simp [Closed]
    -- a name that is not among those in front is put behind them
    have split : done ++ field :: next :: fields = (done ++ [field]) ++ next :: fields := by simp
    rw [writeFields_cons, List.append_assoc _ (',' :: _), List.cons_append, List.cons_append,
      readField_written first (closed _), deliver_fields_next,
      skipSpace_of_visible (visible_writeFields next fields), setField_of_nodup fresh, split]
    exact ih later (split ▸ fresh)

theorem readsBack_mapping (distinct : (fields.map Prod.fst).Nodup)
    (back : ∀ field ∈ fields, ReadsBack field.2) : ReadsBack (.mapping fields) := by
  refine ⟨⟨'\x7b', _, rfl, by decide⟩, fun stack rest _ => ?_⟩
  have opened (text : Text) : readOpening ('\x7b' :: text) = .ok (.object, text) := by rw [readOpening]
  rw [write, List.cons_append, List.cons_append, readValue_eq, opened, List.append_assoc,
    List.singleton_append]
  dsimp only
  cases fields with
  | nil => rfl
  | cons field fields =>
    have visible := visible_writeFields field fields
    rw [skipSpace_of_visible visible, (after?_of_visible (visible_append visible _)).2]
    exact readField_writeFields back distinct

theorem Representable.readsBack (h : Representable v) : ReadsBack v := by
  induction h with
  | null => exact readsBack_null
  | bool b => exact readsBack_bool b
  | int few => exact readsBack_int few
  | str s => exact readsBack_str s
  | list _ ih => exact readsBack_list ih
  | mapping distinct _ ih => exact readsBack_mapping distinct ih

theorem Representable.isWritable (h : Representable v) : v.isWritable = true := by
  induction h with
  | null | bool b | str s => rfl
  | int few => exact decide_eq_true few
  | list _ ih => exact Value.areWritable_iff.mpr ih
  | mapping _ _ ih => exact Value.haveWritable_iff.mpr ih

theorem read_write (h : Representable v) : read (write v) = .ok v := by
  obtain ⟨visible, back⟩ := h.readsBack
  have no_mark : (write v).head? ≠ some '\uFEFF' := by
    obtain ⟨c, text, e, visible⟩ := visible
    rw [e, List.head?_cons]
    rintro ⟨⟩
    exact visible (by decide)
  have whole : readValue [] (skipSpace (write v)) = .ok (v, []) := by
    have skipped := skipSpace_of_visible visible []
    have all := back [] [] (by simp [Closed])
    rw [List.append_nil] at skipped all
    rw [skipped, all, deliver_nil]
  rw [read, if_neg no_mark, whole]
  rfl

end values

end Json

namespace Command

/-- **A mapping has a text, which can be given to the program as data**: the data of the job are that
mapping then, with the keys of each mapping in the same order. -/
theorem context_shown {fields : List (Text × Value)} (h : Json.Representable (.mapping fields)) :
    ∃ text, Value.shown (.mapping fields) = .ok text ∧ ∀ (s : Surroundings) (job : Job),
      job.data = some (.text text) → s.context job = .ok (.mapping fields) := by
  refine ⟨_, Value.shown_of_isWritable h.isWritable, fun s job given => ?_⟩
  rw [Surroundings.context, given]
  dsimp only
  rw [Surroundings.objectOf, Value.toText, Json.read_write h]

/-- Data with quotes, backslashes, brackets, control characters and characters beyond the first plane in
its strings, and with empty and nested containers. -/
def thornyFields : List (Text × Value) :=
  [("a\"\\, \x7d".toList, .list [.null, .bool true, .int (-12345678901234567890), .list [], .mapping []]),
    ("é😀".toList, .mapping [("z".toList, .str "]: \n\x01".toList), ([], .bool false)]),
    ("k".toList, .list [.list [.str [], .int 0], .mapping [("k".toList, .null)]])]

theorem context_shown_thorny :
    Surroundings.context ⟨none, [], fun _ => .error .notFound⟩
        ⟨.render, ['-'], some (.text (Value.toText (.mapping thornyFields))), none, none, none, none⟩
      = .ok (.mapping thornyFields) := by
  have representable : Json.Representable (.mapping thornyFields) := by
    refine .mapping (by decide) ?_
    simp only [thornyFields, List.forall_mem_cons]
    refine ⟨.list ?scalars, .mapping (by decide) ?strings, .list ?nested, nofun⟩
    all_goals simp only [List.forall_mem_cons]
    case scalars => exact ⟨.null, .bool true, .int (by decide), .list nofun, .mapping .nil nofun, nofun⟩
    case strings => exact ⟨.str _, .bool false, nofun⟩
    case nested =>
      refine ⟨.list ?_, .mapping (by decide) ?_, nofun⟩
      all_goals simp only [List.forall_mem_cons]
      · exact ⟨.str [], .int (by decide), nofun⟩
      · exact ⟨.null, nofun⟩
  obtain ⟨text, shown, given⟩ := context_shown representable
  obtain rfl := (Value.shown_eq_ok_iff.mp shown).2
  exact given _ _ rfl

end Command
end Stencil
