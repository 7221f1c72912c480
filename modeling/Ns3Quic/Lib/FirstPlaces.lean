import Mathlib.Data.List.Basic

/-!
# Values at the place where they occur first

A list of values is laid out by looking every value up in the list: each goes to
the place where the list holds it first.  If some of the entries that the list
was collected from are missing, or two are equal, then values end up at other
places than the entries they stand for.
-/

namespace FirstPlaces

universe u

variable {Value : Type u} [DecidableEq Value]

/-- What the layout of a list has at a place. -/
def shown (values : List Value) (place : Nat) : Option Value :=
  values[place]?.filter fun value => values.idxOf value = place

theorem shown_eq_some_iff {values : List Value} {place : Nat} {value : Value} :
    shown values place = some value ↔ values[place]? = some value ∧ values.idxOf value = place := by
  rw [shown, Option.filter_eq_some_iff, decide_eq_true_iff]

theorem shown_eq_ite (values : List Value) (place : Nat) :
    shown values place =
      if ∃ value ∈ values, values.idxOf value = place then values[place]? else none := by
  cases here : values[place]? with
  | none => simp [shown, here]
  | some value =>
      have same : (∃ other ∈ values, values.idxOf other = place) ↔ values.idxOf value = place := by
        constructor
        · rintro ⟨other, membership, rfl⟩
          rw [List.getElem?_idxOf membership, Option.some.injEq] at here
          rw [here]
        · exact fun first => ⟨value, List.mem_of_getElem? here, first⟩
      simp [shown, here, same, Option.filter]

theorem shown_append_cons_iff {front back : List Value} {value : Value} {place : Nat}
    (atMost : front.length ≤ place) :
    shown (front ++ value :: back) place = some value ↔ front.length = place ∧ value ∉ front := by
  rw [shown_eq_some_iff]
  constructor
  · rintro ⟨-, first⟩
    have absent : value ∉ front := by
      intro present
      have inFront := List.idxOf_lt_length_of_mem present
      rw [List.idxOf_append_of_mem present] at first
      omega
    rw [List.idxOf_append_of_notMem absent, List.idxOf_cons_self, Nat.add_zero] at first
    exact ⟨first, absent⟩
  · rintro ⟨rfl, absent⟩
    rw [List.idxOf_append_of_notMem absent, List.idxOf_cons_self]
    exact ⟨by simp, rfl⟩

theorem exists_split {Entry : Type u} {entries : List Entry} {place : Nat} {entry : Entry}
    (found : entries[place]? = some entry) :
    ∃ front back, entries = front ++ entry :: back ∧ front.length = place := by
  obtain ⟨inside, rfl⟩ := List.getElem?_eq_some_iff.mp found
  refine ⟨entries.take place, entries.drop (place + 1), ?_,
    List.length_take_of_le (Nat.le_of_lt inside)⟩
  rw [← List.drop_eq_getElem_cons inside, List.take_append_drop]

/-- A collected value is at the place of its entry exactly if no entry before it
is missing or equal to it. -/
theorem shown_filterMap_some_iff {front back : List (Option Value)} {value : Value} :
    shown ((front ++ some value :: back).filterMap id) front.length = some value ↔
      ∀ entry ∈ front, ∃ other, entry = some other ∧ other ≠ value := by
  rw [List.filterMap_append, List.filterMap_cons_some (id_eq (some value)),
    shown_append_cons_iff (List.length_filterMap_le id front), List.filterMap_length_eq_length]
  constructor
  · rintro ⟨present, absent⟩ entry membership
    obtain ⟨other, same⟩ := Option.isSome_iff_exists.mp (present entry membership)
    refine ⟨other, same, ?_⟩
    rintro rfl
    exact absent (List.mem_filterMap.mpr ⟨entry, membership, same⟩)
  · intro others
    constructor
    · intro entry membership
      obtain ⟨other, rfl, -⟩ := others entry membership
      rfl
    · intro membership
      obtain ⟨entry, inFront, same⟩ := List.mem_filterMap.mp membership
      obtain ⟨other, rfl, differs⟩ := others entry inFront
      exact differs (Option.some.inj same)

theorem shown_filterMap_none {front back : List (Option Value)}
    (missing : ∀ entry ∈ back, entry = none) :
    shown ((front ++ none :: back).filterMap id) front.length = none := by
  have nothing : back.filterMap id = [] := List.filterMap_eq_nil_iff.mpr missing
  rw [List.filterMap_append, List.filterMap_cons_none (id_eq none), nothing, List.append_nil,
    shown, List.getElem?_eq_none (List.length_filterMap_le id front)]
  rfl

/-- The collected values are at the places of their entries, and nothing is at
the places of the missing ones, exactly if no entry is missing before another
and no two are equal. -/
theorem shown_filterMap_iff (entries : List (Option Value)) :
    (∀ place entry, entries[place]? = some entry →
      shown (entries.filterMap id) place = entry) ↔
    ∀ earlier later : Nat, earlier < later → ∀ value, entries[later]? = some (some value) →
      ∃ other, entries[earlier]? = some (some other) ∧ other ≠ value := by
  constructor
  · intro kept earlier later before value found
    have here := kept later (some value) found
    obtain ⟨front, back, rfl, rfl⟩ := exists_split found
    obtain ⟨other, same, differs⟩ :=
      shown_filterMap_some_iff.mp here front[earlier] (List.getElem_mem before)
    refine ⟨other, ?_, differs⟩
    rw [List.getElem?_append_left before, List.getElem?_eq_getElem before, same]
  · intro orderly place entry found
    obtain ⟨front, back, rfl, rfl⟩ := exists_split found
    cases entry with
    | some value =>
        refine shown_filterMap_some_iff.mpr fun entry membership => ?_
        obtain ⟨earlier, before, rfl⟩ := List.getElem_of_mem membership
        obtain ⟨other, same, differs⟩ := orderly earlier front.length before value found
        rw [List.getElem?_append_left before, List.getElem?_eq_getElem before,
          Option.some.injEq] at same
        exact ⟨other, same, differs⟩
    | none =>
        -- a value that follows would have a value at this place before it
        refine shown_filterMap_none fun entry membership => ?_
        obtain ⟨distance, inside, rfl⟩ := List.getElem_of_mem membership
        refine Option.eq_none_iff_forall_ne_some.mpr fun value present => ?_
        have later : (front ++ none :: back)[front.length + (distance + 1)]? =
            some (some value) := by
          rw [List.getElem?_append_right (Nat.le_add_right _ _), Nat.add_sub_cancel_left,
            List.getElem?_cons_succ, List.getElem?_eq_getElem inside, present]
        obtain ⟨other, impossible, -⟩ := orderly front.length _ (by omega) value later
        exact nomatch found.symm.trans impossible

end FirstPlaces
