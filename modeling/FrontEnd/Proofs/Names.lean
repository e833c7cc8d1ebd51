import FrontEnd.NameTable

/-!
The table of names. Each number belongs to the text at its place, and a text that has been added
stays.
-/

namespace FrontEnd.NameTable

/-- The numbers of texts are their places. -/
def Valid (t : NameTable) : Prop :=
  ∀ text number, t.find? text = some number → t.texts[number]? = some text

variable {t : NameTable}

theorem valid_empty : empty.Valid := by
  intro text number h
  simp [find?, empty] at h

theorem mem_intern {name : String} (text : String) (h : name ∈ t.texts) :
    name ∈ (t.intern text).2.texts := by
  unfold intern
  split
  · exact h
  · exact Array.mem_push.2 (.inl h)

theorem mem_intern_self (h : t.Valid) (text : String) : text ∈ (t.intern text).2.texts := by
  unfold intern
  split
  · rename_i number hf
    exact Array.mem_of_getElem? (h text number hf)
  · exact Array.mem_push_self

theorem Valid.intern (h : t.Valid) (text : String) : (t.intern text).2.Valid := by
  unfold NameTable.intern
  split
  · exact h
  · intro other number hf
    simp only [find?, Std.HashMap.getElem?_insert] at hf
    rw [Array.getElem?_push]
    split at hf
    · rename_i he
      cases hf
      exact (if_pos rfl).trans (congrArg some (eq_of_beq he))
    · have ho := h other number hf
      obtain ⟨hlt, _⟩ := Array.getElem?_eq_some_iff.1 ho
      rw [if_neg (Nat.ne_of_lt hlt)]
      exact ho

theorem mem_addAll {name : String} (texts : List String) (h : name ∈ t.texts) :
    name ∈ (t.addAll texts).texts := by
  induction texts generalizing t with
  | nil => exact h
  | cons text texts ih => exact ih (mem_intern text h)

theorem Valid.addAll (h : t.Valid) (texts : List String) : (t.addAll texts).Valid := by
  induction texts generalizing t with
  | nil => exact h
  | cons text texts ih => exact ih (h.intern text)

/-- A table that has been filled from scratch is valid. -/
theorem valid_addAll_empty (texts : List String) : (empty.addAll texts).Valid :=
  valid_empty.addAll texts

theorem mem_addAll_self (h : t.Valid) {texts : List String} {name : String} (hn : name ∈ texts) :
    name ∈ (t.addAll texts).texts := by
  induction texts generalizing t with
  | nil => cases hn
  | cons text texts ih =>
    rcases List.mem_cons.1 hn with rfl | hn
    · exact mem_addAll texts (mem_intern_self h name)
    · exact ih (h.intern text) hn

end FrontEnd.NameTable
