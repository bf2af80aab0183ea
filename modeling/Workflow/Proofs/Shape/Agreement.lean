import Workflow.Proofs.Shape.Value
/-!
# Workflow — one value, read and given

A value fitted as its text was read and the same value fitted as it is come to
the same outcome, problems included: the first problem in the text is the
first problem in the value. The one exception is a wide integer where no
integer may stand, which text turns into a number with a point before it is
refused. `Agrees` says this of two outcomes, and `Record.agrees` shows it of a
record as long as its tables repeat no name.
-/

namespace Workflow

open Json (Form Scalar Draft)

/-- A form has a part at a place. -/
inductive Json.Form.Leads : Form → List Place → Form → Prop where
  | here (f : Form) : Leads f [] f
  | field {ms : List (String × Form)} {key : String} {f g : Form} {place : List Place}
      (hm : (key, f) ∈ ms) (h : Leads f place g) : Leads (.obj ms) (.field key :: place) g
  | entry {ms : List (String × Form)} {key : String} {f g : Form} {place : List Place}
      (hm : (key, f) ∈ ms) (h : Leads f place g) : Leads (.obj ms) (.entry :: place) g
  | element {items : List Form} {index : Nat} {f g : Form} {place : List Place}
      (hi : items[index]? = some f) (h : Leads f place g) :
      Leads (.arr items) (.element index :: place) g

/-- What text says of a wide integer where no integer may stand: it is a
number with a point, or past the largest of them. -/
def Misfit.wide (expected : String) (n : Int) (place : List Place) : Misfit :=
  match Double.ofInt? n with
  | some _ => .wrongKind expected .float place
  | none => .outOfRange place

theorem Misfit.within_wide (p : Place) (expected : String) (n : Int) (place : List Place) :
    (Misfit.wide expected n place).within p = Misfit.wide expected n (p :: place) := by
  unfold Misfit.wide
  split <;> rfl

/-- Reading a form comes to what its value comes to, or to the wide integer
that both refuse at one place. -/
def Agrees {α : Type} (f : Form) (read given : Except Problem α) : Prop :=
  read = given ∨ ∃ n expected place, f.Leads place (.scalar (.int n)) ∧
    ¬ Json.Token.fitsWord n ∧ read = .error (.misfit (.wide expected n place)) ∧
    given = .error (.misfit (.wrongKind expected .int place))

namespace Agrees

variable {α β : Type} {f : Form} {read given : Except Problem α}

/-- Agreement at a part is agreement in the whole. -/
theorem within {whole : Form} {p : Place} (h : Agrees f read given)
    (hp : ∀ place g, f.Leads place g → whole.Leads (p :: place) g) :
    Agrees whole (read.mapError (Problem.within p)) (given.mapError (Problem.within p)) := by
  rcases h with rfl | ⟨n, expected, place, hn, hwide, rfl, rfl⟩
  · exact .inl rfl
  · refine .inr ⟨n, expected, p :: place, hp _ _ hn, hwide, ?_, rfl⟩
    rw [← Misfit.within_wide]
    rfl

/-- Agreement so far and agreement from there on is agreement. -/
theorem bind {k k' : α → Except Problem β} (h : Agrees f read given)
    (hk : ∀ x, read = .ok x → given = .ok x → Agrees f (k x) (k' x)) :
    Agrees f (read >>= k) (given >>= k') := by
  rcases h with rfl | ⟨n, expected, place, hn, hwide, rfl, rfl⟩
  · cases read with
    | error p => exact .inl rfl
    | ok x => exact hk x rfl rfl
  · exact .inr ⟨n, expected, place, hn, hwide, rfl, rfl⟩

theorem map (g : α → β) (h : Agrees f read given) : Agrees f (g <$> read) (g <$> given) := by
  rcases h with rfl | ⟨n, expected, place, hn, hwide, rfl, rfl⟩
  · exact .inl rfl
  · exact .inr ⟨n, expected, place, hn, hwide, rfl, rfl⟩

end Agrees

/-! ## Tables -/

/-- A form's members repeat no name. -/
def Json.Form.Distinct (f : Form) : Prop :=
  Entries.Distinct f.members

theorem keys_of_valueMembers {ms : List (String × Form)} {vs : List (String × Json)}
    (h : Form.valueMembers? ms = some vs) : Entries.keys vs = Entries.keys ms := by
  induction ms generalizing vs with
  | nil =>
    cases h
    rfl
  | cons m rest ih =>
    obtain ⟨v, vs, -, hvs, rfl⟩ := Form.valueMembers?_cons_eq_some.1 h
    exact congrArg (m.1 :: ·) (ih hvs)

/-- What repeats no name is collected as it is. -/
theorem collect_of_valueMembers {ms : List (String × Form)} {vs : List (String × Json)}
    (h : Form.valueMembers? ms = some vs) (hd : Entries.Distinct ms) :
    Entries.collect vs = vs := by
  refine Entries.collect_of_distinct ?_
  unfold Entries.Distinct
  rw [keys_of_valueMembers h]
  exact hd

namespace Shape

theorem agrees_scalar {shape : Shape} (hs : shape.TakesIntegers) {s : Scalar} {v : Json}
    (h : s.value? = some v) : Agrees (.scalar s) (shape.fit s.draft) (shape.fit (.ofJson v)) := by
  cases s with
  | int n =>
    cases h
    by_cases hn : Json.Token.fitsWord n
    · exact .inl (by rw [Scalar.draft, if_pos hn]; rfl)
    · rw [Scalar.draft, if_neg hn]
      by_cases hint : shape.accepts .int
      · exact .inl (by simp [fit, fitWide, fitLeaf, Draft.ofJson, Json.kind, hint])
      · have hfloat : ¬ shape.accepts .float := fun hf => hint (hs.accepts hf)
        refine .inr ⟨n, shape.expected, [], .here _, hn, ?_, ?_⟩
        · cases hx : Double.ofInt? n <;>
            simp [fit, fitWide, fitLeaf, Json.kind, wrong, Misfit.wide, hint, hfloat, hx]
        · simp [fit, fitLeaf, Draft.ofJson, Json.kind, wrong, hint]
  | decimal negative digits power =>
    obtain ⟨x, hx, rfl⟩ := Option.map_eq_some_iff.1 h
    exact .inl (by simp [Scalar.draft, hx, Draft.ofJson])
  | _ =>
    cases h
    exact .inl rfl

/-- Any value agrees in a place that takes neither lists nor objects. -/
theorem agrees_in_scalar {accepted : List Json.Kind} (hs : (scalar accepted).TakesIntegers)
    {f : Form} {v : Json} (hv : f.value? = some v) :
    Agrees f ((scalar accepted).fit f.draft) ((scalar accepted).fit (.ofJson v)) := by
  cases f with
  | scalar s => exact agrees_scalar hs hv
  | arr items =>
    obtain ⟨vs, -, rfl⟩ := Option.map_eq_some_iff.1 hv
    exact .inl rfl
  | obj ms =>
    obtain ⟨vs, -, rfl⟩ := Option.map_eq_some_iff.1 hv
    exact .inl rfl

/-- The entries of a table agree if each does. -/
theorem agrees_entries {entry : Shape} {whole : Form} {ms : List (String × Form)}
    {vs : List (String × Json)} (hvs : Form.valueMembers? ms = some vs)
    (hin : ∀ m ∈ ms, ∀ place g, m.2.Leads place g → whole.Leads (.entry :: place) g)
    (h : ∀ m ∈ ms, ∀ v, m.2.value? = some v →
      Agrees m.2 (entry.fit m.2.draft) (entry.fit (.ofJson v))) :
    Agrees whole (fitMembers (Form.draftMembers ms) entry)
      (fitMembers (Draft.ofMembers vs) entry) := by
  induction ms generalizing vs with
  | nil =>
    cases hvs
    exact .inl rfl
  | cons m rest ih =>
    obtain ⟨v, vs, hv, hmore, rfl⟩ := Form.valueMembers?_cons_eq_some.1 hvs
    have hfirst := (h m List.mem_cons_self v hv).within (hin m List.mem_cons_self)
    have hrest := ih hmore (fun m hm => hin m (List.mem_cons_of_mem _ hm))
      fun m hm => h m (List.mem_cons_of_mem _ hm)
    exact hfirst.bind fun x _ _ => hrest.map ((m.1, x) :: ·)

/-- A table that repeats no name agrees if its entries do. -/
theorem agrees_table {entry : Shape} (hs : entry.TakesIntegers) {f : Form} {v : Json}
    (hv : f.value? = some v) (hd : f.Distinct) (h : ∀ m ∈ f.members, ∀ v, m.2.value? = some v →
      Agrees m.2 (entry.fit m.2.draft) (entry.fit (.ofJson v))) :
    Agrees f ((table entry).fit f.draft) ((table entry).fit (.ofJson v)) := by
  cases f with
  | scalar s => exact agrees_scalar (takesIntegers_table hs) hv
  | arr items =>
    obtain ⟨vs, -, rfl⟩ := Option.map_eq_some_iff.1 hv
    exact .inl rfl
  | obj ms =>
    obtain ⟨vs, hvs, rfl⟩ := Option.map_eq_some_iff.1 hv
    rw [collect_of_valueMembers hvs hd]
    refine Agrees.map _ (agrees_entries hvs (fun m hm place g => ?_) h)
    exact .entry hm

/-- A table of anything agrees, also if it repeats names. -/
theorem agrees_table_any {f : Form} {v : Json} (hv : f.value? = some v) :
    Agrees f ((table any).fit f.draft) ((table any).fit (.ofJson v)) := by
  cases f with
  | scalar s => exact agrees_scalar (takesIntegers_table takesIntegers_any) hv
  | arr items =>
    obtain ⟨vs, -, rfl⟩ := Option.map_eq_some_iff.1 hv
    exact .inl rfl
  | obj ms =>
    have hread : (table any).fit (Form.obj ms).draft = .ok v := fit_any_of_value (.obj ms) hv
    exact .inl (hread.trans (value_of_fit (takesIntegers_table takesIntegers_any) _ hread).2.symm)

end Shape

/-! ## Records -/

namespace Record

/-- The fields of a record agree if each does. -/
theorem agrees_fields {r : Record} (hr : r.strict) {whole : Form} {ms : List (String × Form)}
    {vs : List (String × Json)} (hvs : Form.valueMembers? ms = some vs)
    (hin : ∀ m ∈ ms, ∀ place g, m.2.Leads place g → whole.Leads (.field m.1 :: place) g)
    (h : ∀ m ∈ ms, ∀ shape, r.fields.get? m.1 = some shape → ∀ v, m.2.value? = some v →
      Agrees m.2 (shape.fit m.2.draft) (shape.fit (.ofJson v))) :
    Agrees whole (r.fitMembers (Form.draftMembers ms)) (r.fitMembers (Draft.ofMembers vs)) := by
  induction ms generalizing vs with
  | nil =>
    cases hvs
    exact .inl rfl
  | cons m rest ih =>
    obtain ⟨v, vs, hv, hmore, rfl⟩ := Form.valueMembers?_cons_eq_some.1 hvs
    rw [Form.draftMembers, Draft.ofMembers, fitMembers, fitMembers]
    cases hshape : r.fields.get? m.1 with
    | none => exact .inl (by simp [hr])
    | some shape =>
      have hfirst := (h m List.mem_cons_self shape hshape v hv).within
        (hin m List.mem_cons_self)
      have hrest := ih hmore (fun m hm => hin m (List.mem_cons_of_mem _ hm))
        fun m hm => h m (List.mem_cons_of_mem _ hm)
      exact hfirst.bind fun x _ _ => hrest.map ((m.1, x) :: ·)

/-- **A record that repeats no name agrees if its fields do.** -/
theorem agrees {r : Record} (hr : r.strict) {f : Form} {v : Json} (hv : f.value? = some v)
    (hd : f.Distinct) (h : ∀ m ∈ f.members, ∀ shape, r.fields.get? m.1 = some shape →
      ∀ v, m.2.value? = some v → Agrees m.2 (shape.fit m.2.draft) (shape.fit (.ofJson v))) :
    Agrees f (r.fit f.draft) (r.fit (.ofJson v)) := by
  cases f with
  | scalar s =>
    rw [Form.draft, fit_of_ne_obj r s.draft_ne_obj, fit_of_ne_obj r (s.ofJson_ne_obj hv)]
    exact (Shape.agrees_scalar (Shape.takesIntegers_table Shape.takesIntegers_any) hv).map _
  | arr items =>
    obtain ⟨vs, -, rfl⟩ := Option.map_eq_some_iff.1 hv
    exact .inl rfl
  | obj ms =>
    obtain ⟨vs, hvs, rfl⟩ := Option.map_eq_some_iff.1 hv
    rw [collect_of_valueMembers hvs hd]
    exact (agrees_fields hr hvs (fun m hm place g => .field hm) h).map _

end Record

end Workflow
