import EmojiPicker.Catalog.Document
import EmojiPicker.Proofs.Navigation.Cursor

/-!
# Accepted catalogs

The numbers of an accepted catalog name its categories.

* `Catalog.fault?_eq_none_iff`, `Catalog.Distinct` — which catalogs are accepted;
* `FaultOf`, `Catalog.first_fault` — what is wrong with the others: the first category at fault;
* `Catalog.Spells`, `Catalog.parse_eq_ok_iff`, `Catalog.parse_of_fault` — how documents are read;
* `Navigation.keysOf_ofCatalog` — navigation over an accepted catalog has the keys of each category;
* `Catalog.Distinct.nodup_ids` — and its numbers stay distinct, whatever happens.

Where two categories share a number, the later one takes the keys of the earlier one away.
-/

namespace EmojiPicker

namespace Catalog

theorem faultAfter?_eq_none_iff (seen : List CategoryId) (definitions : List CategoryDefinition) :
    faultAfter? seen definitions = none ↔
      (∀ d ∈ definitions, d.id.isRecents = false ∧ d.id ∉ seen) ∧ (definitions.map (·.id)).Nodup := by
  induction definitions generalizing seen with
  | nil => simp [faultAfter?]
  | cons d rest ih =>
      rw [faultAfter?]
      by_cases reserved : d.id.isRecents = true
      · simp [reserved]
      by_cases taken : d.id ∈ seen
      · simp [reserved, taken]
      -- The number of this category counts as seen for the rest, and so does every number before it.
      rw [if_neg reserved, if_neg (by simpa using taken), ih, List.map_cons, List.nodup_cons,
        List.forall_mem_cons]
      constructor
      · rintro ⟨later, once⟩
        refine ⟨⟨⟨by simpa using reserved, taken⟩, ?_⟩, ?_, once⟩
        · intro c hc
          exact ⟨(later c hc).1, fun old => (later c hc).2 (List.mem_cons_of_mem _ old)⟩
        · intro repeated
          rcases List.mem_map.1 repeated with ⟨c, hc, same⟩
          exact (later c hc).2 (same ▸ List.mem_cons_self)
      · rintro ⟨⟨_, later⟩, other, once⟩
        refine ⟨?_, once⟩
        intro c hc
        refine ⟨(later c hc).1, fun old => ?_⟩
        rcases List.mem_cons.1 old with same | old
        · exact other (same ▸ List.mem_map_of_mem hc)
        · exact (later c hc).2 old

/-- A catalog is accepted if no category claims the number of the recently used emoji and no two have
one number. -/
theorem fault?_eq_none_iff (catalog : Catalog) :
    catalog.fault? = none ↔
      (∀ d ∈ catalog.categories, d.id.isRecents = false) ∧ (catalog.categories.map (·.id)).Nodup := by
  rw [fault?, faultAfter?_eq_none_iff]
  simp

/-- The numbers of a catalog name its categories: none is that of the recently used emoji, and no two are
the same. -/
structure Distinct (catalog : Catalog) : Prop where
  foreign : ∀ d ∈ catalog.categories, d.id ≠ .recents
  once : (catalog.categories.map (·.id)).Nodup

theorem distinct_iff (catalog : Catalog) : catalog.Distinct ↔ catalog.fault? = none := by
  rw [fault?_eq_none_iff]
  constructor
  · intro distinct
    exact ⟨fun d hd => beq_false_of_ne (distinct.foreign d hd), distinct.once⟩
  · rintro ⟨foreign, once⟩
    exact ⟨fun d hd => ne_of_beq_false (foreign d hd), once⟩

end Catalog

/-! ## Faults -/

/-- What is wrong with a category after others with some numbers: it claims the number of the recently
used emoji, or a number that is taken. -/
inductive FaultOf (taken : List CategoryId) (d : CategoryDefinition) : CatalogFault → Prop where
  | reserved : d.id = .recents → FaultOf taken d (.reservedId d.name)
  | repeated : d.id ≠ .recents → d.id ∈ taken → FaultOf taken d (.duplicateId d.id)

theorem FaultOf.mono {taken more : List CategoryId} {d : CategoryDefinition} {fault : CatalogFault}
    (wrong : FaultOf taken d fault) (kept : ∀ id ∈ taken, id ∈ more) : FaultOf more d fault := by
  cases wrong with
  | reserved claims => exact .reserved claims
  | repeated foreign again => exact .repeated foreign (kept _ again)

namespace Catalog

theorem first_fault_after {seen : List CategoryId} {definitions : List CategoryDefinition}
    {fault : CatalogFault} (found : faultAfter? seen definitions = some fault) :
    ∃ before d after, definitions = before ++ d :: after ∧ faultAfter? seen before = none ∧
      FaultOf (seen ++ before.map (·.id)) d fault := by
  induction definitions generalizing seen with
  | nil => exact absurd found (by simp [faultAfter?])
  | cons d rest ih =>
      rw [faultAfter?] at found
      split at found
      · next claims =>
          refine ⟨[], d, rest, rfl, rfl, ?_⟩
          rw [← Option.some.inj found]
          exact .reserved (eq_of_beq claims)
      · next foreign =>
          split at found
          · next again =>
              refine ⟨[], d, rest, rfl, rfl, ?_⟩
              rw [← Option.some.inj found, List.map_nil, List.append_nil]
              exact .repeated (fun same => foreign (beq_iff_eq.2 same)) (by simpa using again)
          · next fresh =>
              -- This category is in order, and its number is taken for the rest.
              rcases ih found with ⟨before, wrong, after, split, sound, fault⟩
              refine ⟨d :: before, wrong, after, ?_, ?_, ?_⟩
              · rw [split]
                rfl
              · rw [faultAfter?, if_neg foreign, if_neg fresh]
                exact sound
              · apply fault.mono
                intro id there
                simpa [or_left_comm] using there

/-- A catalog that is not accepted is refused for its first category that claims the number of the
recently used emoji or that of an earlier one. -/
theorem first_fault {catalog : Catalog} (unsound : ¬ catalog.Distinct) :
    ∃ before d after fault, catalog.categories = before ++ d :: after ∧ Distinct ⟨before⟩ ∧
      FaultOf (before.map (·.id)) d fault ∧ catalog.fault? = some fault := by
  cases found : catalog.fault? with
  | none => exact absurd ((distinct_iff catalog).2 found) unsound
  | some fault =>
      rcases first_fault_after found with ⟨before, d, after, split, sound, wrong⟩
      exact ⟨before, d, after, fault, split, (distinct_iff ⟨before⟩).2 sound, wrong, rfl⟩

/-! ## Documents -/

/-- A text is a well-formed document of a catalog, whatever the numbers in it. -/
def Spells (text : List Char) (catalog : Catalog) : Prop :=
  (Json.parse? text >>= ofJson?) = some catalog

theorem parse_eq_ok_iff (text : List Char) (catalog : Catalog) :
    parse text = .ok catalog ↔ Spells text catalog ∧ catalog.fault? = none := by
  rw [parse, Spells]
  cases Json.parse? text >>= ofJson? with
  | none => simp
  | some read =>
      cases wrong : read.fault? with
      | some fault =>
          simp only [wrong, reduceCtorEq, Option.some.injEq, false_iff]
          rintro ⟨rfl, sound⟩
          exact absurd (wrong.symm.trans sound) (by simp)
      | none =>
          simp only [wrong, Except.ok.injEq, Option.some.injEq]
          exact ⟨fun same => ⟨same, same ▸ wrong⟩, And.left⟩

theorem parse_of_fault {text : List Char} {catalog : Catalog} {fault : CatalogFault}
    (spelled : Spells text catalog) (wrong : catalog.fault? = some fault) :
    parse text = .error (.catalog fault) := by
  rw [Spells] at spelled
  rw [parse, spelled]
  simp only [wrong]

theorem fault?_of_parse {text : List Char} {catalog : Catalog} (parsed : parse text = .ok catalog) :
    catalog.fault? = none :=
  ((parse_eq_ok_iff text catalog).1 parsed).2

end Catalog

namespace Navigation

variable {catalog : Catalog} {d : CategoryDefinition}

theorem ids_numberFrom (first : Nat) (definitions : List CategoryDefinition) :
    (numberFrom first definitions).map (·.id) = definitions.map (·.id) := by
  induction definitions generalizing first with
  | nil => rfl
  | cons d rest ih => exact congrArg (d.id :: ·) (ih (first + 1))

theorem ids_ofCatalog (catalog : Catalog) (recents : Recents) (options : PageOptions) :
    (ofCatalog catalog recents options).ids = .recents :: catalog.categories.map (·.id) := by
  have uncounted : (uncounted catalog recents options).ids =
      .recents :: catalog.categories.map (·.id) :=
    congrArg (CategoryId.recents :: ·) (ids_numberFrom 1 catalog.categories)
  exact (ids_recount _).trans uncounted

theorem keysOf_ofCatalog (accepted : catalog.fault? = none) (hd : d ∈ catalog.categories)
    (recents : Recents) (options : PageOptions) :
    (ofCatalog catalog recents options).keysOf d.id = d.keys := by
  rcases (Catalog.fault?_eq_none_iff catalog).1 accepted with ⟨foreign, once⟩
  have listed : (ofCatalog catalog recents options).keys =
      catalog.categories.reverse.map fun d => (d.id, d.keys) := rfl
  have found : (catalog.categories.reverse.map fun d => (d.id, d.keys)).lookup d.id = some d.keys := by
    rcases List.append_of_mem hd with ⟨before, after, split⟩
    refine List.lookup_eq_some_iff.2 ⟨after.reverse.map fun d => (d.id, d.keys),
      before.reverse.map fun d => (d.id, d.keys), ?_, ?_⟩
    · rw [split]
      simp
    · -- No later category has the number of this one.
      intro entry found
      rcases List.mem_map.1 found with ⟨c, hc, rfl⟩
      rw [split] at once
      simp only [List.map_append, List.map_cons, List.nodup_append, List.nodup_cons] at once
      have other : d.id ∉ after.map (·.id) := once.2.1.1
      have distinct : d.id ≠ c.id := by
        intro same
        exact other (same ▸ List.mem_map_of_mem (List.mem_reverse.1 hc))
      simpa using distinct
  rw [keysOf, if_neg (by simp [foreign d hd]), listed, found]
  rfl

end Navigation

theorem Catalog.Distinct.nodup_ids {catalog : Catalog} (distinct : catalog.Distinct)
    (recents : Recents) (options : PageOptions) (events : List NavigationEvent) :
    ((Navigation.ofCatalog catalog recents options).run events).ids.Nodup := by
  rw [Navigation.ids_run, Navigation.ids_ofCatalog, List.nodup_cons]
  refine ⟨?_, distinct.once⟩
  intro claimed
  rcases List.mem_map.1 claimed with ⟨d, hd, same⟩
  exact distinct.foreign d hd same

end EmojiPicker
