import FrontEnd.Proofs.Names

/-!
The table of names under any requests. Its list and its map are inverse to each other, a text is
numbered by its place in the order of first interning, and no request changes a number that has been
given out.
-/

namespace FrontEnd.NameTable

inductive Request
  | intern (text : String)
  | find (text : String)
  | resolve (number : Nat)
deriving DecidableEq, Repr

inductive Reply
  | number (number : Nat)
  | found (number? : Option Nat)
  | resolved (text? : Option String)
deriving DecidableEq, Repr

/-- The text that a request interns. -/
def Request.interned? : Request → Option String
  | .intern text => some text
  | .find _ | .resolve _ => none

/-- The reply to a request and the table behind it. -/
def serve (t : NameTable) : Request → Reply × NameTable
  | .intern text => (.number (t.intern text).1, (t.intern text).2)
  | .find text => (.found (t.find? text), t)
  | .resolve number => (.resolved (t.text? number), t)

/-- The table behind a number of requests. -/
def after (t : NameTable) (requests : List Request) : NameTable :=
  requests.foldl (fun t request => (t.serve request).2) t

/-- The requests with their replies. -/
def log (t : NameTable) : List Request → List (Request × Reply)
  | [] => []
  | request :: requests => (request, (t.serve request).1) :: (t.serve request).2.log requests

/-- The list and the map hold the same pairs. -/
def Inverse (t : NameTable) : Prop :=
  ∀ text number, t.find? text = some number ↔ t.text? number = some text

variable {t : NameTable} {text other : String} {number : Nat}

theorem inverse_empty : empty.Inverse := by
  intro text number
  simp [find?, text?, empty]

/-! One interning -/

theorem intern_of_find (h : t.find? text = some number) : t.intern text = (number, t) := by
  unfold intern
  rw [h]

theorem intern_of_new (h : t.find? text = none) :
    t.intern text = (t.size, ⟨t.texts.push text, t.numbers.insert text t.size⟩) := by
  unfold intern
  rw [h]

theorem find?_insert (other : String) :
    find? ⟨t.texts.push text, t.numbers.insert text t.size⟩ other =
      if text = other then some t.size else t.find? other := by
  simp only [find?, Std.HashMap.getElem?_insert, beq_iff_eq]

theorem text?_push (number : Nat) {numbers : Std.HashMap String Nat} :
    text? ⟨t.texts.push text, numbers⟩ number =
      if number = t.size then some text else t.text? number :=
  Array.getElem?_push

theorem text?_of_intern (h : t.Inverse) (text : String) :
    (t.intern text).2.text? (t.intern text).1 = some text := by
  cases hf : t.find? text with
  | some number =>
    rw [intern_of_find hf]
    exact (h text number).1 hf
  | none =>
    rw [intern_of_new hf]
    exact (text?_push t.size).trans (if_pos rfl)

theorem lt_size_of_text? (h : t.text? number = some text) : number < t.size :=
  (Array.getElem?_eq_some_iff.1 h).1

theorem Inverse.intern (h : t.Inverse) (text : String) : (t.intern text).2.Inverse := by
  cases hf : t.find? text with
  | some number => rwa [intern_of_find hf]
  | none =>
    rw [intern_of_new hf]
    intro other number
    rw [find?_insert, text?_push]
    split
    · rename_i he
      subst he
      constructor
      · intro hs
        cases hs
        exact if_pos rfl
      · intro ht
        split at ht
        · rename_i hn
          exact congrArg some hn.symm
        · -- the text is new, so it has no place yet
          have := (h text number).2 ht
          rw [hf] at this
          cases this
    · rename_i hne
      rw [h other number]
      constructor
      · intro ht
        rwa [if_neg (Nat.ne_of_lt (lt_size_of_text? ht))]
      · intro ht
        split at ht
        · cases ht
          exact absurd rfl hne
        · exact ht

/-- Interning appends a new text and changes nothing else. -/
theorem toList_intern (h : t.Inverse) (text : String) :
    (t.intern text).2.texts.toList =
      if text ∈ t.texts.toList then t.texts.toList else t.texts.toList ++ [text] := by
  cases hf : t.find? text with
  | some number =>
    have ht : t.texts[number]? = some text := (h text number).1 hf
    rw [intern_of_find hf, if_pos (Array.mem_toList_iff.2 (Array.mem_of_getElem? ht))]
  | none =>
    have hn : text ∉ t.texts.toList := by
      intro hm
      obtain ⟨number, ht⟩ := Array.getElem?_of_mem (Array.mem_toList_iff.1 hm)
      have := (h text number).2 ht
      rw [hf] at this
      cases this
    rw [intern_of_new hf, if_neg hn]
    exact Array.toList_push

theorem text?_intern (text : String) (ht : t.text? number = some other) :
    (t.intern text).2.text? number = some other := by
  cases hf : t.find? text with
  | some _ => rwa [intern_of_find hf]
  | none =>
    rw [intern_of_new hf]
    exact (text?_push number).trans ((if_neg (Nat.ne_of_lt (lt_size_of_text? ht))).trans ht)

/-! One request -/

theorem Inverse.serve (h : t.Inverse) (request : Request) : (t.serve request).2.Inverse := by
  cases request with
  | intern text => exact h.intern text
  | find text => exact h
  | resolve number => exact h

theorem text?_serve (request : Request) (ht : t.text? number = some text) :
    (t.serve request).2.text? number = some text := by
  cases request with
  | intern text => exact text?_intern text ht
  | find text => exact ht
  | resolve number => exact ht

/-- A text stands in the table from its interning on. -/
theorem find?_serve (h : t.Inverse) {request : Request}
    (hf : (t.serve request).2.find? text = some number) :
    t.find? text = some number ∨
      (request, (t.serve request).1) = (.intern text, .number number) := by
  cases request with
  | find text => exact .inl hf
  | resolve number => exact .inl hf
  | intern new =>
    by_cases he : new = text
    · subst he
      have hs := ((h.intern new) new _).2 (text?_of_intern h new)
      have : (t.intern new).1 = number := Option.some.inj (hs.symm.trans hf)
      exact .inr (congrArg _ (congrArg _ this))
    · cases hn : t.find? new with
      | some _ =>
        rw [NameTable.serve, intern_of_find hn] at hf
        exact .inl hf
      | none =>
        rw [NameTable.serve, intern_of_new hn] at hf
        exact .inl ((if_neg he).symm.trans ((find?_insert text).symm.trans hf))

/-! Any number of requests -/

@[simp] theorem after_cons (request : Request) (requests : List Request) :
    t.after (request :: requests) = (t.serve request).2.after requests := rfl

theorem after_append (earlier later : List Request) :
    t.after (earlier ++ later) = (t.after earlier).after later :=
  List.foldl_append

theorem Inverse.after (h : t.Inverse) (requests : List Request) : (t.after requests).Inverse := by
  induction requests generalizing t with
  | nil => exact h
  | cons request requests ih => exact ih (h.serve request)

theorem text?_after (requests : List Request) (ht : t.text? number = some text) :
    (t.after requests).text? number = some text := by
  induction requests generalizing t with
  | nil => exact ht
  | cons request requests ih => exact ih (text?_serve request ht)

/-- A number that has been given out belongs to the text it was given to. -/
theorem text?_of_mem_log (h : t.Inverse) {requests : List Request}
    (hm : (.intern text, .number number) ∈ t.log requests) :
    (t.after requests).text? number = some text := by
  induction requests generalizing t with
  | nil => cases hm
  | cons request requests ih =>
    rcases List.mem_cons.1 hm with he | hm
    · obtain ⟨rfl, hr⟩ := Prod.mk.inj he
      obtain rfl : number = (t.intern text).1 := Reply.number.inj hr
      exact text?_after requests (text?_of_intern h text)
    · exact ih (h.serve request) hm

theorem mem_log_of_find? (h : t.Inverse) {requests : List Request}
    (hf : (t.after requests).find? text = some number) :
    t.find? text = some number ∨ (.intern text, .number number) ∈ t.log requests := by
  induction requests generalizing t with
  | nil => exact .inl hf
  | cons request requests ih =>
    rcases ih (h.serve request) hf with hs | hm
    · exact (find?_serve h hs).imp_right fun he => List.mem_cons.2 (.inl he.symm)
    · exact .inr (List.mem_cons_of_mem _ hm)

/-- Each request stands in the log, with a number if it interns a text. -/
theorem exists_mem_log {requests : List Request} (hm : .intern text ∈ requests) :
    ∃ number, (.intern text, .number number) ∈ t.log requests := by
  induction requests generalizing t with
  | nil => cases hm
  | cons request requests ih =>
    rcases List.mem_cons.1 hm with rfl | hm
    · exact ⟨_, List.mem_cons_self⟩
    · obtain ⟨number, hn⟩ := ih hm
      exact ⟨number, List.mem_cons_of_mem _ hn⟩

theorem toList_after (h : t.Inverse) (requests : List Request) {texts : List String}
    (ht : t.texts.toList = texts.eraseDups) :
    (t.after requests).texts.toList =
      (texts ++ requests.filterMap Request.interned?).eraseDups := by
  induction requests generalizing t texts with
  | nil => simpa [after] using ht
  | cons request requests ih =>
    cases request with
    | find text => exact ih h ht
    | resolve number => exact ih h ht
    | intern text =>
      have hs : (t.intern text).2.texts.toList = (texts ++ [text]).eraseDups := by
        rw [toList_intern h, ht, List.eraseDups_append]
        by_cases hm : text ∈ texts <;> simp [hm, List.removeAll, List.eraseDups_cons]
      have := ih (h.intern text) hs
      rwa [List.append_assoc] at this

/-- Two numbers of the log are equal exactly if the texts they were given to are. -/
theorem number_eq_iff (h : t.Inverse) {requests : List Request} {number' : Nat}
    (hm : (.intern text, .number number) ∈ t.log requests)
    (hm' : (.intern other, .number number') ∈ t.log requests) :
    number = number' ↔ text = other := by
  have ht := text?_of_mem_log h hm
  have ht' := text?_of_mem_log h hm'
  constructor
  · rintro rfl
    exact Option.some.inj (ht.symm.trans ht')
  · rintro rfl
    have hi := h.after requests
    exact Option.some.inj (((hi _ _).2 ht).symm.trans ((hi _ _).2 ht'))

/-- What a table that starts empty does under any requests. With `firsts`, the interned texts in the
order of first interning: list and map hold the same pairs, and the list is `firsts`; an interning
replies with the place of its text in `firsts`, which is below the number of distinct texts, is the
same for equal texts only, and resolves to the text behind any later requests; a text is found
exactly if it has been interned, with that number; finding and resolving leave the table as it is. -/
theorem serves_requests (requests : List Request) :
    let table := empty.after requests
    let firsts := (requests.filterMap Request.interned?).eraseDups
    table.Inverse ∧ table.texts.toList = firsts ∧
      (∀ text, .intern text ∈ requests →
        ∃ number, (.intern text, .number number) ∈ empty.log requests) ∧
      (∀ text number, (.intern text, .number number) ∈ empty.log requests →
        number < firsts.length ∧ firsts[number]? = some text ∧
          ∀ later, (table.after later).serve (.resolve number) =
            (.resolved (some text), table.after later)) ∧
      (∀ text number text' number', (.intern text, .number number) ∈ empty.log requests →
        (.intern text', .number number') ∈ empty.log requests →
          (number = number' ↔ text = text')) ∧
      ∀ text, ∃ number?, table.serve (.find text) = (.found number?, table) ∧
        ∀ number, number? = some number ↔
          (.intern text, .number number) ∈ empty.log requests := by
  intro table firsts
  have hi : table.Inverse := inverse_empty.after requests
  have none : empty.texts.toList = ([] : List String).eraseDups := rfl
  have hl : table.texts.toList = firsts := toList_after inverse_empty requests none
  have ht {text number} (hm : (.intern text, .number number) ∈ empty.log requests) :
      table.text? number = some text := text?_of_mem_log inverse_empty hm
  refine ⟨hi, hl, fun text => exists_mem_log, fun text number hm => ?_,
    fun _ _ _ _ => number_eq_iff inverse_empty, fun text => ⟨_, rfl, fun number => ?_⟩⟩
  · have hn : firsts[number]? = some text := by
      rw [← hl, Array.getElem?_toList]
      exact ht hm
    refine ⟨(List.getElem?_eq_some_iff.1 hn).1, hn, fun later => ?_⟩
    rw [serve, text?_after later (ht hm)]
  · constructor
    · intro hf
      exact (mem_log_of_find? inverse_empty hf).resolve_left (by simp [find?, empty])
    · exact fun hm => (hi text number).2 (ht hm)

end FrontEnd.NameTable
