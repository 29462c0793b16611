import Mathlib.Data.List.Basic

/-!
# Overwriting a part of a list

`overlay data pos part` puts `part` over the elements of `data` from `pos` on.  The loops that copy
a range onto another one within one list, element by element, are overlays of the range as it was
before, when they run in the direction that the overlap of the two ranges asks for.
-/

namespace Futils.Lib.Overlay

open List

variable {α : Type*} {data first second part : List α} {pos target source count : Nat}

/-- The list with `part` in the place of the elements from `pos` on. -/
def overlay (data : List α) (pos : Nat) (part : List α) : List α :=
  data.take pos ++ part ++ data.drop (pos + part.length)

theorem length_overlay (fits : pos + part.length ≤ data.length) :
    (overlay data pos part).length = data.length := by
  simp only [overlay, length_append, length_take, length_drop]
  omega

theorem take_overlay (inside : pos ≤ data.length) :
    (overlay data pos part).take (pos + part.length) = data.take pos ++ part := by
  rw [overlay, take_left']
  simp only [length_append, length_take]
  omega

theorem drop_overlay (inside : pos ≤ data.length) :
    (overlay data pos part).drop (pos + part.length) = data.drop (pos + part.length) := by
  rw [overlay, drop_left']
  simp only [length_append, length_take]
  omega

theorem drop_overlay_of_le {start : Nat} (behind : pos + part.length ≤ start)
    (inside : pos ≤ data.length) : (overlay data pos part).drop start = data.drop start := by
  obtain ⟨-, rfl⟩ := Nat.exists_eq_add_of_le behind
  rw [← drop_drop, drop_overlay inside, drop_drop]

theorem take_overlay_of_le {stop : Nat} (before : stop ≤ pos) (inside : pos ≤ data.length) :
    (overlay data pos part).take stop = data.take stop := by
  have long : stop ≤ (data.take pos).length := by
    rw [length_take]
    omega
  rw [overlay, append_assoc, take_append_of_le_length long, take_take,
    Nat.min_eq_left before]

/-- Two overlays side by side are one. -/
theorem overlay_overlay (fits : pos + first.length ≤ data.length) :
    overlay (overlay data pos first) (pos + first.length) second =
      overlay data pos (first ++ second) := by
  have behind : (overlay data pos first).drop (pos + first.length + second.length) =
      data.drop (pos + (first.length + second.length)) := by
    rw [drop_overlay_of_le (by omega) (by omega), Nat.add_assoc]
  rw [overlay, take_overlay (by omega), behind]
  simp [overlay]

/-- The part can be read back. -/
theorem take_drop_overlay (fits : pos + part.length ≤ data.length) :
    ((overlay data pos part).drop pos).take part.length = part := by
  rw [take_drop, take_overlay (by omega), drop_left']
  rw [length_take]
  omega

/-- An element behind the part takes the place next to it. -/
theorem overlay_set (fits : pos + part.length < data.length) (value : α) :
    (overlay data pos part).set (pos + part.length) value = overlay data pos (part ++ [value]) := by
  have length_eq : (data.take pos ++ part).length = pos + part.length := by
    simp only [length_append, length_take]
    omega
  rw [overlay, set_append_right _ _ (by omega), length_eq, drop_eq_getElem_cons fits]
  simp [overlay, Nat.add_assoc]

/-- `for (i = 0; i < count; i++) data[target + i] = data[source + i]`. -/
def copyUp (target source : Nat) : Nat → List α → List α
  | 0, data => data
  | count + 1, data =>
    let copied := copyUp target source count data
    match copied[source + count]? with
    | some value => copied.set (target + count) value
    | none => copied

/-- `for (i = count; i > 0; i--) data[target + i - 1] = data[source + i - 1]`. -/
def copyDown (target source : Nat) : Nat → List α → List α
  | 0, data => data
  | count + 1, data =>
    match data[source + count]? with
    | some value => copyDown target source count (data.set (target + count) value)
    | none => copyDown target source count data

/-- Copying upwards to a lower place is an overlay. -/
theorem copyUp_eq (lower : target ≤ source) (fits : source + count ≤ data.length) :
    copyUp target source count data = overlay data target ((data.drop source).take count) := by
  induction count with
  | zero => simp [copyUp, overlay]
  | succ count ih =>
    have part_length : ((data.drop source).take count).length = count := by
      simp only [length_take, length_drop]
      omega
    have place := @overlay_set _ data ((data.drop source).take count) target (by omega)
    rw [part_length] at place
    -- The element at `source + count` lies behind what was overwritten.
    have untouched : (overlay data target ((data.drop source).take count))[source + count]? =
        some (data[source + count]) := by
      have front_length :
          (data.take target ++ (data.drop source).take count).length = target + count := by
        simp only [length_append, length_take, length_drop]
        omega
      rw [overlay, getElem?_append_right (by omega), getElem?_drop, front_length,
        part_length,
        show target + count + (source + count - (target + count)) = source + count by omega]
      exact getElem?_eq_getElem _
    simp only [copyUp, ih (by omega), untouched]
    rw [place, ← take_append_getElem (by rw [length_drop]; omega), getElem_drop]

/-- Copying downwards to a higher place is an overlay. -/
theorem copyDown_eq (higher : source ≤ target) (fits : target + count ≤ data.length) :
    copyDown target source count data = overlay data target ((data.drop source).take count) := by
  induction count generalizing data with
  | zero => simp [copyDown, overlay]
  | succ count ih =>
    have inside : source + count < data.length := by omega
    rw [copyDown, getElem?_eq_getElem inside]
    simp only
    rw [ih (by rw [length_set]; omega)]
    have part_eq : ((data.set (target + count) data[source + count]).drop source).take count =
        (data.drop source).take count := by
      rw [drop_set, if_neg (by omega), take_set_of_le (by omega)]
    have part_length : ((data.drop source).take count).length = count := by
      simp only [length_take, length_drop]
      omega
    have part_succ : (data.drop source).take (count + 1) =
        (data.drop source).take count ++ [data[source + count]] := by
      rw [← take_append_getElem (by rw [length_drop]; omega), getElem_drop]
    have place := @overlay_set _ data ((data.drop source).take count) target (by omega)
    rw [part_eq, part_succ, ← place, overlay, overlay]
    rw [take_set_of_le (by omega), drop_set, if_neg (by omega), set_append_right _ _ (by
        simp only [length_append, length_take]
        omega)]
    congr 2
    simp only [length_append, length_take, part_length]
    omega

end Futils.Lib.Overlay
