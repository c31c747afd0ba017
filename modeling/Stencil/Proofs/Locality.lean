import Stencil.Proofs.Scan

/-! # Scanning from the middle of a text

The rules of the scan ask only for what stands behind the place where it is.  So the markers from a
position on are those of the text behind it, moved by the position, and a scan that is taken up where a
marker has ended goes on with the next one, whatever was passed over before.

* `Scanned.shift`: what the rules find in the rest of a text they find in the text.
* `Scanned.resume`: what the rules find behind a marker.
* `markersFrom_local` puts them together. -/

namespace Stencil

open Text

/-- The marker when so many characters are put in front of the text. -/
def Marker.shift (offset : Nat) (m : Marker) : Marker :=
  ⟨m.body, offset + m.start, offset + m.stop⟩

section shift
variable {d : Delimiters} {token text : Text} {offset start position level : Nat} {m : Marker}
  {ms : List Marker}

/-! ### Moving the rules -/

theorem Text.FirstAt.shift (h : FirstAt token (text.drop offset) start position) :
    FirstAt token text (offset + start) (offset + position) := by
  refine ⟨Nat.add_le_add_left h.le offset, (standsAt_drop ..).mp h.stands, fun i hs hi => ?_⟩
  obtain ⟨k, rfl⟩ := Nat.exists_eq_add_of_le (Nat.le_trans (Nat.le_add_right ..) hs)
  rw [← standsAt_drop]
  exact h.first k (by omega) (by omega)

theorem Delimiters.OpeningRun.shift (h : d.OpeningRun (text.drop offset) start level) :
    d.OpeningRun text (offset + start) level := by
  refine ⟨h.level_pos, (standsAt_drop ..).mp h.stands, ?_⟩
  rw [Nat.add_assoc, ← standsAt_drop]
  exact h.ends

theorem Delimiters.Unclosed.shift (h : d.Unclosed (text.drop offset) start level) :
    d.Unclosed text (offset + start) level := by
  refine ⟨h.toOpeningRun.shift, fun i hi => ?_⟩
  obtain ⟨k, rfl⟩ : ∃ k, i = offset + k := ⟨i - offset, by omega⟩
  rw [← standsAt_drop]
  exact h.nowhere k (by omega)

theorem Marker.Delimited.shift (usable : d.usable = true) (h : m.Delimited d (text.drop offset) level) :
    (m.shift offset).Delimited d text level := by
  refine ⟨h.toOpeningRun.shift, ?_, ?_, fun i hi hi' => ?_⟩
  · have := h.start_lt_stop usable
    have := h.stop_le
    rw [List.length_drop] at this
    dsimp only [Marker.shift]
    omega
  · rw [Marker.shift, ← List.drop_drop, ← List.take_drop]
    exact h.source
  · dsimp only [Marker.shift] at hi hi'
    obtain ⟨k, rfl⟩ : ∃ k, i = offset + k := ⟨i - offset, by omega⟩
    rw [← standsAt_drop]
    exact h.first k (by omega) (by omega)

/-- What the rules find in the rest of a text they find in the text. -/
theorem Scanned.shift (usable : d.usable = true) (h : Scanned d (text.drop offset) position ms) :
    Scanned d text (offset + position) (ms.map (Marker.shift offset)) := by
  induction h with
  | done nowhere =>
    refine .done fun i hi => ?_
    obtain ⟨k, rfl⟩ : ∃ k, i = offset + k := ⟨i - offset, by omega⟩
    rw [← standsAt_drop]
    exact nowhere k (by omega)
  | skip first unclosed _ ih => exact .skip first.shift unclosed.shift (Nat.add_assoc .. ▸ ih)
  | found first delimited _ ih => exact .found first.shift (delimited.shift usable) ih

/-- Behind a marker the rules find the markers that follow it. -/
theorem Scanned.resume (h : Scanned d text position ms) {i : Nat} (hi : i < ms.length) :
    Scanned d text ms[i].stop (ms.drop (i + 1)) := by
  induction h generalizing i with
  | done => exact absurd hi (Nat.not_lt_zero i)
  | skip _ _ _ ih => exact ih hi
  | found _ _ later ih =>
    cases i with
    | zero => exact later
    | succ i => exact ih (Nat.lt_of_succ_lt_succ hi)

end shift

/-- **The scan is local.**  The markers from a position on are the markers of the text behind it, with the
position added to where they start and stop.  A scan from where the i-th marker of a text stops finds
exactly the markers behind the i-th. -/
theorem markersFrom_local {d : Delimiters} (usable : d.usable = true) (text : Text) :
    (∀ position, markersFrom d text position
        = (markers d (text.drop position)).map (Marker.shift position))
      ∧ ∀ (i : Nat) (hi : i < (markers d text).length),
        markersFrom d text (markers d text)[i].stop = (markers d text).drop (i + 1) := by
  constructor
  · intro position
    have moved := (scanned_markersFrom usable (text.drop position) 0).shift usable
    exact ((scanned_iff usable).mp moved).symm
  · intro i hi
    have resumed := (scanned_markersFrom usable text 0).resume hi
    exact ((scanned_iff usable).mp resumed).symm

/-- A scan that starts inside the first marker, and one behind it, where a run that is not closed follows. -/
theorem markersFrom_local_overlapping :
    let d : Delimiters := ⟨['a', 'b', 'a'], ['b', 'c']⟩
    let text := "abaabax bbcbc abaabaaba y bcbc aba z bbc".toList
    d.usable = true
      ∧ markersFrom d text 3 = [⟨"x b".toList, 3, 11⟩, ⟨" z b".toList, 31, 40⟩]
      ∧ markersFrom d text 3 = (markers d (text.drop 3)).map (Marker.shift 3)
      ∧ markers d text = [⟨"x b".toList, 0, 13⟩, ⟨" z b".toList, 31, 40⟩]
      ∧ markersFrom d text 13 = [⟨" z b".toList, 31, 40⟩] := by
  intro d text
  have usable : d.usable = true := by decide
  have inside : markersFrom d text 3 = [⟨"x b".toList, 3, 11⟩, ⟨" z b".toList, 31, 40⟩] := by
    decide +kernel
  have all : markers d text = [⟨"x b".toList, 0, 13⟩, ⟨" z b".toList, 31, 40⟩] := by decide +kernel
  have behind := (markersFrom_local usable text).2 0 (by rw [all]; decide)
  simp only [all] at behind
  exact ⟨usable, inside, (markersFrom_local usable text).1 3, all, behind⟩

end Stencil
