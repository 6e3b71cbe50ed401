import CapacityExpansion.Proofs.Data.Success
import CapacityExpansion.Proofs.Toml.Statements
import Mathlib.Data.Option.Basic

/-!
# Keys of documents

No key of a document is defined twice. Its sections are added one after the other,
and each of them only adds to the document at the end of its path, what is on the way
being set again to something keyed. So every table which is read from a text is a map.

* `keyed_descend`: what is done at the end of a path keeps a document keyed;
* `keyed_addSection`: a section keeps a document keyed;
* `keyed_of_ofText?`: the table which a text defines is keyed;
* `keyed_of_readText`: and so is every table which is read for its own sake.
-/

namespace CapacityExpansion.Toml

/-! ## Sections -/

theorem Item.toTable_eq (items : Items) :
    Item.toTable items = items.map (Prod.map id Item.toValue) := by
  induction items with
  | nil => rw [Item.toTable, List.map_nil]
  | cons entry items ih =>
    rw [Item.toTable, ih]
    rfl

theorem Item.lookUp?_toTable (items : Items) (key : String) :
    lookUp? (Item.toTable items) key = (lookUp? items key).map Item.toValue := by
  rw [Item.toTable_eq, lookUp?_map]

theorem Item.toTable_setEntry (key : String) (item : Item) (items : Items) :
    Item.toTable (setEntry key item items) = setEntry key item.toValue (Item.toTable items) := by
  rw [Item.toTable_eq, setEntry_map, Item.toTable_eq]

theorem Item.toTable_filter (p : String → Bool) (items : Items) :
    Item.toTable (items.filter fun entry => p entry.1) =
      (Item.toTable items).filter fun entry => p entry.1 := by
  rw [Item.toTable_eq, Item.toTable_eq, List.filter_map]
  rfl

theorem Item.keyed_nil : Keyed (Item.toTable []) := by
  rw [Item.toTable]
  exact .nil

/-- A table in a keyed one is keyed. -/
theorem Item.keyed_inner {items inner : Items} {key : String} {origin : Origin}
    (h : Keyed (Item.toTable items)) (hkey : lookUp? items key = some (.table origin inner)) :
    Keyed (Item.toTable inner) := by
  have hlook : lookUp? (Item.toTable items) key = some (.table (Item.toTable inner)) := by
    rw [Item.lookUp?_toTable, hkey, Option.map_some, Item.toValue]
  exact h.inner hlook

/-- Items with a keyed table, or an array of tables, under a key. -/
theorem Item.keyed_setEntry {items : Items} {key : String} {item : Item}
    (h : Keyed (Item.toTable items)) (hitem : KeyedValue item.toValue) :
    Keyed (Item.toTable (setEntry key item items)) := by
  rw [Item.toTable_setEntry]
  exact h.setEntry hitem

theorem Item.keyedValue_table {origin : Origin} {items : Items} (h : Keyed (Item.toTable items)) :
    KeyedValue (Item.table origin items).toValue := by
  rw [Item.toValue]
  rintro _ ⟨⟩
  exact h

theorem Item.keyedValue_elements (tables : List Items) :
    KeyedValue (Item.elements tables).toValue := by
  rw [Item.toValue]
  exact nofun

/-- What is done at the end of a path keeps a document keyed if it keeps all tables so. -/
theorem keyed_descend {created : Origin} {f : Origin → Items → Option Items}
    (hf : ∀ origin items after, Keyed (Item.toTable items) → f origin items = some after →
      Keyed (Item.toTable after)) {path : List String} {origin : Origin} {items after : Items}
    (hkeyed : Keyed (Item.toTable items)) (h : descend created f path origin items = some after) :
    Keyed (Item.toTable after) := by
  induction path generalizing origin items after with
  | nil => exact hf origin items after hkeyed h
  | cons key path ih =>
    -- The path goes into a new table, one which is there, or the last element of an array.
    rw [descend] at h
    split at h
    · obtain ⟨_, hitem, ⟨⟩⟩ := Option.bind_eq_some_iff.1 h
      obtain ⟨inner, hinner, rfl⟩ := Option.map_eq_some_iff.1 hitem
      exact Item.keyed_setEntry hkeyed (Item.keyedValue_table (ih Item.keyed_nil hinner))
    · next hlook =>
      obtain ⟨_, -, h⟩ := Option.bind_eq_some_iff.1 h
      obtain ⟨_, hitem, ⟨⟩⟩ := Option.bind_eq_some_iff.1 h
      obtain ⟨inner, hinner, rfl⟩ := Option.map_eq_some_iff.1 hitem
      exact Item.keyed_setEntry hkeyed
        (Item.keyedValue_table (ih (Item.keyed_inner hkeyed hlook) hinner))
    · obtain ⟨_, hitem, ⟨⟩⟩ := Option.bind_eq_some_iff.1 h
      obtain ⟨last, -, rfl⟩ := Option.map_eq_some_iff.1 hitem
      exact Item.keyed_setEntry hkeyed (Item.keyedValue_elements _)
    · cases h
    · cases h

theorem keyed_assign {a : Assignment} (ha : a.Keyed) {items after : Items}
    (hkeyed : Keyed (Item.toTable items)) (h : assign a items = some after) :
    Keyed (Item.toTable after) := by
  refine keyed_descend (fun origin items after hkeyed h => ?_) hkeyed h
  obtain ⟨_, -, h⟩ := Option.bind_eq_some_iff.1 h
  obtain ⟨_, hnew, ⟨⟩⟩ := Option.bind_eq_some_iff.1 h
  rw [Option.guard_eq_some', Option.isNone_iff_eq_none] at hnew
  rw [← setEntry_of_new hnew]
  exact Item.keyed_setEntry hkeyed ha

theorem keyed_assignAll {list : List Assignment} (hlist : ∀ a ∈ list, a.Keyed)
    {items after : Items} (hkeyed : Keyed (Item.toTable items))
    (h : assignAll list items = some after) : Keyed (Item.toTable after) :=
  foldlM_some_invariant (fun items => Keyed (Item.toTable items))
    (fun _ hbefore a ha _ hafter => keyed_assign (hlist a ha) hbefore hafter) hkeyed h

theorem keyed_openTable {key : String} {list : List Assignment} (hlist : ∀ a ∈ list, a.Keyed)
    {items after : Items} (hkeyed : Keyed (Item.toTable items))
    (h : openTable key list items = some after) : Keyed (Item.toTable after) := by
  -- A table which has only been implied moves to the end, where its key is new again.
  have hnew : lookUp? (items.filter (·.1 ≠ key)) key = none := by
    simp [lookUp?_eq_none_iff]
  have hset : ∀ {inner inner' : Items}, Keyed (Item.toTable inner) →
      assignAll list inner = some inner' →
      Keyed (Item.toTable (items.filter (·.1 ≠ key) ++ [(key, .table .opened inner')])) := by
    intro inner inner' hinner h'
    rw [← setEntry_of_new hnew]
    refine Item.keyed_setEntry ?_ (Item.keyedValue_table (keyed_assignAll hlist hinner h'))
    rw [Item.toTable_filter (· ≠ key)]
    exact hkeyed.remove key
  rw [openTable] at h
  split at h
  · obtain ⟨_, ⟨⟩, h⟩ := Option.bind_eq_some_iff.1 h
    obtain ⟨_, h', ⟨⟩⟩ := Option.bind_eq_some_iff.1 h
    exact hset Item.keyed_nil h'
  · next hlook =>
    obtain ⟨_, ⟨⟩, h⟩ := Option.bind_eq_some_iff.1 h
    obtain ⟨_, h', ⟨⟩⟩ := Option.bind_eq_some_iff.1 h
    exact hset (Item.keyed_inner hkeyed hlook) h'
  · cases h

theorem keyed_openElement {key : String} {list : List Assignment}
    {items after : Items} (hkeyed : Keyed (Item.toTable items))
    (h : openElement key list items = some after) : Keyed (Item.toTable after) := by
  rw [openElement] at h
  split at h
  · obtain ⟨_, -, h⟩ := Option.bind_eq_some_iff.1 h
    obtain ⟨_, -, ⟨⟩⟩ := Option.bind_eq_some_iff.1 h
    exact Item.keyed_setEntry hkeyed (Item.keyedValue_elements _)
  · obtain ⟨_, -, h⟩ := Option.bind_eq_some_iff.1 h
    obtain ⟨_, -, ⟨⟩⟩ := Option.bind_eq_some_iff.1 h
    exact Item.keyed_setEntry hkeyed (Item.keyedValue_elements _)
  · cases h

/-- A further section keeps a document keyed. -/
theorem keyed_addSection {s : Section} (hs : ∀ a ∈ s.assignments, a.Keyed) {items after : Items}
    (hkeyed : Keyed (Item.toTable items)) (h : addSection items s = some after) :
    Keyed (Item.toTable after) := by
  rw [addSection.eq_def] at h
  split at h
  · exact keyed_assignAll hs hkeyed h
  · exact keyed_descend (fun _ _ _ hkeyed h => keyed_openTable hs hkeyed h) hkeyed h
  · exact keyed_descend (fun _ _ _ hkeyed h => keyed_openElement hkeyed h) hkeyed h

/-- The assignments of all sections are those of the statements. -/
theorem keyed_of_mem_sections {statements : List Statement} (h : ∀ s ∈ statements, s.Keyed)
    {opening : Opening} {soFar : List Assignment} (hsoFar : ∀ a ∈ soFar, a.Keyed) :
    ∀ s ∈ sections opening soFar statements, ∀ a ∈ s.assignments, a.Keyed := by
  have hfirst : ∀ a ∈ soFar.reverse, a.Keyed := fun a ha => hsoFar a (List.mem_reverse.1 ha)
  induction statements generalizing opening soFar with
  | nil => exact List.forall_mem_singleton.2 hfirst
  | cons statement statements ih =>
    rw [List.forall_mem_cons] at h
    cases statement with
    | assign a =>
      have hsoFar' : ∀ a' ∈ a :: soFar, a'.Keyed := List.forall_mem_cons.2 ⟨h.1 a rfl, hsoFar⟩
      exact ih h.2 hsoFar' fun a ha => hsoFar' a (List.mem_reverse.1 ha)
    | table path => exact List.forall_mem_cons.2 ⟨hfirst, ih h.2 nofun nofun⟩
    | element path => exact List.forall_mem_cons.2 ⟨hfirst, ih h.2 nofun nofun⟩

/-- No key of a document is defined twice. -/
theorem keyed_of_ofText? {text : String} {t : Table} (h : ofText? text = some t) : Keyed t := by
  obtain ⟨statements, hstatements, h⟩ := Option.bind_eq_some_iff.1 h
  obtain ⟨items, hitems, rfl⟩ := Option.map_eq_some_iff.1 h
  have hsections : ∀ s ∈ sections .root [] statements, ∀ a ∈ s.assignments, a.Keyed :=
    keyed_of_mem_sections (keyed_of_readStatements hstatements) nofun
  exact foldlM_some_invariant (fun items => Keyed (Item.toTable items))
    (fun _ hbefore s hs _ hafter => keyed_addSection (hsections s hs) hbefore hafter)
    Item.keyed_nil hitems

/-! ## Any tables -/

/-- A table is read off a table. -/
theorem anyValue_eq_table {v : Value} {t : Table} (h : anyValue v = .ok (.table t)) :
    ∃ before, v = .table before ∧ anyTable before = .ok t := by
  rw [anyValue.eq_def] at h
  split at h
  · next key v rest =>
    split at h
    · obtain ⟨_, -, ⟨⟩⟩ := map_ok_iff.1 h
    · obtain ⟨first, hfirst, h⟩ := bind_ok_iff.1 h
      obtain ⟨after, hafter, ⟨⟩⟩ := bind_ok_iff.1 h
      refine ⟨_, rfl, ?_⟩
      rw [anyTable]
      exact bind_ok_iff.2 ⟨first, hfirst, bind_ok_iff.2 ⟨after, hafter, rfl⟩⟩
  · obtain ⟨_, -, ⟨⟩⟩ := map_ok_iff.1 h
  · next hnot _ =>
    cases h
    rcases t with _ | ⟨entry, rest⟩
    · exact ⟨[], rfl, by rw [anyTable]⟩
    · exact absurd rfl (hnot entry.1 entry.2 rest)

theorem anyTable_cons {entry : String × Value} {t after : Table}
    (h : anyTable (entry :: t) = .ok after) : ∃ v rest, anyValue entry.2 = .ok v ∧
      anyTable t = .ok rest ∧ (entry.1, v) :: rest = after := by
  rw [anyTable] at h
  obtain ⟨v, hv, h⟩ := bind_ok_iff.1 h
  obtain ⟨rest, hrest, ⟨⟩⟩ := bind_ok_iff.1 h
  exact ⟨v, rest, hv, hrest, rfl⟩

theorem map_fst_anyTable {t after : Table} (h : anyTable t = .ok after) :
    after.map Prod.fst = t.map Prod.fst := by
  induction t generalizing after with
  | nil =>
    rw [anyTable] at h
    cases h
    rfl
  | cons entry t ih =>
    obtain ⟨v, rest, -, hrest, rfl⟩ := anyTable_cons h
    rw [List.map_cons, List.map_cons, ih hrest]

theorem exists_of_lookUp?_anyTable {t after : Table} (h : anyTable t = .ok after) {key : String}
    {w : Value} (hw : lookUp? after key = some w) :
    ∃ v, lookUp? t key = some v ∧ anyValue v = .ok w := by
  induction t generalizing after with
  | nil =>
    rw [anyTable] at h
    cases h
    cases hw
  | cons entry t ih =>
    obtain ⟨v, rest, hv, hrest, rfl⟩ := anyTable_cons h
    rw [lookUp?_cons] at hw ⊢
    by_cases hkey : entry.1 = key
    · rw [if_pos hkey, Option.some.injEq] at hw
      rw [if_pos hkey]
      exact ⟨entry.2, rfl, hw ▸ hv⟩
    · rw [if_neg hkey] at hw ⊢
      exact ih hrest hw

/-- Tables which are read off keyed ones are keyed. -/
theorem keyed_anyTable {t after : Table} (ht : Keyed t) (h : anyTable t = .ok after) :
    Keyed after := by
  induction ht generalizing after with
  | @intro t hnodup _ ih =>
    refine .intro (map_fst_anyTable h ▸ hnodup) fun key inner hinner => ?_
    obtain ⟨v, hv, hread⟩ := exists_of_lookUp?_anyTable h hinner
    obtain ⟨before, rfl, hbefore⟩ := anyValue_eq_table hread
    exact ih key before hv hbefore

/-- A table which is read from a text has no key twice. -/
theorem keyed_of_readText {text : String} {t : Table} (h : readText anyTable text = .ok t) :
    Keyed t := by
  rw [readText] at h
  split at h
  · next before hbefore => exact keyed_anyTable (keyed_of_ofText? hbefore) h
  · cases h

end CapacityExpansion.Toml
