/-!
# Workflow — entries in order

Objects, state tables and registries are rows of named entries whose order
is part of what they say. Putting a value under a name keeps the place of a
name already there and adds a new name at the end. `get?_insert` is the law
of the view `get?`, `keys_insert` that of the order; `distinct_collect` says
that entries put one after the other never repeat a name.
-/

namespace Workflow

/-- Named values, in order. -/
abbrev Entries (α : Type) := List (String × α)

namespace Entries

variable {α β : Type}

/-- The value under a name: the first one, if several entries bear it. -/
def get? : Entries α → String → Option α
  | [], _ => none
  | (k, v) :: rest, key => if k = key then some v else get? rest key

/-- Some entry bears the name. -/
def has (es : Entries α) (key : String) : Bool :=
  (get? es key).isSome

/-- The names, in order. -/
def keys (es : Entries α) : List String :=
  es.map (·.1)

/-- Puts a value under a name. -/
def insert : Entries α → String → α → Entries α
  | [], key, value => [(key, value)]
  | (k, v) :: rest, key, value =>
    if k = key then (k, value) :: rest else (k, v) :: insert rest key value

/-- Entries one after the other: a repeated name keeps its first place and
its last value. -/
def collect (es : List (String × α)) : Entries α :=
  es.foldl (fun done e => insert done e.1 e.2) []

/-- No name is repeated. -/
def Distinct (es : Entries α) : Prop :=
  (keys es).Nodup

/-! ## Reading after putting -/

@[simp] theorem get?_nil (key : String) : get? ([] : Entries α) key = none := rfl

/-- What a name holds after a value is put under another name, or its own. -/
theorem get?_insert (es : Entries α) (key key' : String) (value : α) :
    get? (insert es key value) key' = if key = key' then some value else get? es key' := by
  induction es with
  | nil => rfl
  | cons e rest ih =>
    obtain ⟨k, v⟩ := e
    by_cases h : k = key
    · subst h
      by_cases h' : k = key' <;> simp [insert, get?, h']
    · by_cases h' : k = key'
      · subst h'
        simp [insert, get?, h, Ne.symm h]
      · simp [insert, get?, h, h', ih]

/-- The last value that is put under a name stays. -/
theorem insert_insert (es : Entries α) (key : String) (value value' : α) :
    insert (insert es key value) key value' = insert es key value' := by
  induction es with
  | nil => simp [insert]
  | cons e rest ih =>
    obtain ⟨k, v⟩ := e
    by_cases h : k = key
    · simp [insert, h]
    · simp [insert, h, ih]

/-- Putting back the value that a name has changes nothing, its place included. -/
theorem insert_of_get? {es : Entries α} {key : String} {value : α} (h : get? es key = some value) :
    insert es key value = es := by
  induction es with
  | nil => cases h
  | cons e rest ih =>
    obtain ⟨k, v⟩ := e
    by_cases hk : k = key
    · obtain rfl : v = value := by simpa [get?, hk] using h
      rw [insert, if_pos hk]
    · rw [insert, if_neg hk, ih (by simpa [get?, hk] using h)]

/-- The names after a value is put under one. -/
theorem keys_insert (es : Entries α) (key : String) (value : α) :
    keys (insert es key value) = if key ∈ keys es then keys es else keys es ++ [key] := by
  induction es with
  | nil => rfl
  | cons e rest ih =>
    obtain ⟨k, v⟩ := e
    by_cases h : k = key
    · subst h
      simp [insert, keys]
    · have ih' : (insert rest key value).map (·.1) =
          if key ∈ rest.map (·.1) then rest.map (·.1) else rest.map (·.1) ++ [key] := ih
      simp only [insert, keys, h, if_false, List.map_cons, List.mem_cons, Ne.symm h, false_or, ih']
      split <;> simp

/-- Values that are put under two names show alike in either order. -/
theorem get?_insert_comm (es : Entries α) {key key' : String} (h : key ≠ key') (value value' : α)
    (name : String) :
    get? (insert (insert es key value) key' value') name =
      get? (insert (insert es key' value') key value) name := by
  simp only [get?_insert]
  by_cases hk : key = name
  · subst hk
    simp [Ne.symm h]
  · simp [hk]

/-- The names are the same in either order, but for their own. -/
theorem keys_insert_comm (es : Entries α) (key key' : String) (value value' : α) :
    (keys (insert (insert es key value) key' value')).Perm
      (keys (insert (insert es key' value') key value)) := by
  simp only [keys_insert]
  by_cases hk : key ∈ keys es <;> by_cases hk' : key' ∈ keys es
  · simp [hk, hk']
  · simp [hk, hk']
  · simp [hk, hk']
  · by_cases heq : key = key'
    · simp [heq]
    · simpa [hk, hk', heq, Ne.symm heq] using List.Perm.append_left _ (.swap key' key [])

/-- A name has a value exactly if it is among the names. -/
theorem get?_isSome_iff (es : Entries α) (key : String) :
    (get? es key).isSome ↔ key ∈ keys es := by
  induction es with
  | nil => simp [keys]
  | cons e rest ih =>
    obtain ⟨k, v⟩ := e
    by_cases h : k = key
    · subst h
      simp [get?, keys]
    · simp only [get?, h, if_false, ih]
      simp [keys, Ne.symm h]

/-- The value under a name is that of an entry. -/
theorem mem_of_get? {es : Entries α} {key : String} {value : α} (h : get? es key = some value) :
    (key, value) ∈ es := by
  induction es with
  | nil => cases h
  | cons e rest ih =>
    obtain ⟨k, v⟩ := e
    unfold get? at h
    split at h
    · rename_i hk
      cases h
      exact hk ▸ List.mem_cons_self
    · exact List.mem_cons_of_mem _ (ih h)

/-- An entry is found under its name, if no name is repeated. -/
theorem get?_of_mem {es : Entries α} {key : String} {value : α} (h : Distinct es)
    (hmem : (key, value) ∈ es) : get? es key = some value := by
  induction es with
  | nil => cases hmem
  | cons e rest ih =>
    obtain ⟨k, v⟩ := e
    obtain ⟨hk, hrest⟩ := List.nodup_cons.1 h
    rcases List.mem_cons.1 hmem with heq | hmem
    · cases heq
      simp [get?]
    · have hne : k ≠ key := by
        rintro rfl
        exact hk (List.mem_map_of_mem (f := (·.1)) hmem)
      rw [get?, if_neg hne, ih hrest hmem]

/-- Putting a value under a name repeats no name. -/
theorem distinct_insert {es : Entries α} (h : Distinct es) (key : String) (value : α) :
    Distinct (insert es key value) := by
  unfold Distinct at h ⊢
  rw [keys_insert]
  split
  · exact h
  · rename_i hk
    refine List.nodup_append.2 ⟨h, by simp, ?_⟩
    intro a ha b hb hab
    rw [List.mem_singleton] at hb
    exact hk (hb ▸ hab ▸ ha)

/-- **Collected entries repeat no name.** -/
theorem distinct_collect (es : List (String × α)) : Distinct (collect es) := by
  have main (done : Entries α) (h : Distinct done) :
      Distinct (es.foldl (fun done e => insert done e.1 e.2) done) := by
    induction es generalizing done with
    | nil => exact h
    | cons e rest ih => exact ih _ (distinct_insert h e.1 e.2)
  exact main [] List.nodup_nil

/-- A new name goes to the end. -/
theorem insert_of_not_mem {es : Entries α} {key : String} (h : key ∉ keys es) (value : α) :
    insert es key value = es ++ [(key, value)] := by
  induction es with
  | nil => rfl
  | cons e rest ih =>
    have hk : e.1 ≠ key := fun hk => h (hk ▸ List.mem_cons_self)
    rw [insert, if_neg hk, ih fun hm => h (List.mem_cons_of_mem _ hm)]
    rfl

/-- Entries that repeat no name are left as they are. -/
theorem collect_of_distinct {es : Entries α} (h : Distinct es) : collect es = es := by
  have main (done rest : Entries α) (h : Distinct (done ++ rest)) :
      rest.foldl (fun done e => insert done e.1 e.2) done = done ++ rest := by
    induction rest generalizing done with
    | nil => exact (List.append_nil done).symm
    | cons e rest ih =>
      have hk : e.1 ∉ keys done := by
        unfold Distinct keys at h
        rw [List.map_append, List.nodup_append] at h
        exact fun hm => h.2.2 _ hm _ List.mem_cons_self rfl
      rw [List.foldl_cons, insert_of_not_mem hk, ih _ (by simpa using h)]
      simp
  exact main [] es h

/-- Putting a value under a name brings in no other entry. -/
theorem mem_insert {es : Entries α} {key : String} {value : α} {e : String × α}
    (h : e ∈ insert es key value) : e = (key, value) ∨ e ∈ es := by
  induction es with
  | nil => exact .inl (List.mem_singleton.1 h)
  | cons d rest ih =>
    unfold insert at h
    split at h
    · rename_i hk
      rcases List.mem_cons.1 h with h | h
      · exact .inl (hk ▸ h)
      · exact .inr (List.mem_cons_of_mem _ h)
    · rcases List.mem_cons.1 h with h | h
      · exact .inr (List.mem_cons.2 (.inl h))
      · exact (ih h).imp_right (List.mem_cons_of_mem _)

/-- Collected entries are among those given. -/
theorem mem_of_mem_collect {es : List (String × α)} {e : String × α} (h : e ∈ collect es) :
    e ∈ es := by
  have main (rest : List (String × α)) (done : Entries α)
      (h : e ∈ rest.foldl (fun done e => insert done e.1 e.2) done) : e ∈ done ∨ e ∈ rest := by
    induction rest generalizing done with
    | nil => exact .inl h
    | cons d rest ih =>
      rcases ih _ h with h | h
      · rcases mem_insert h with rfl | h
        · exact .inr List.mem_cons_self
        · exact .inl h
      · exact .inr (List.mem_cons_of_mem _ h)
  exact (main es [] h).resolve_left List.not_mem_nil

end Entries

end Workflow
