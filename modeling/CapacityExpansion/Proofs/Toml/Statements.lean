import CapacityExpansion.Proofs.Toml.Keys

/-!
# Keys in statements

What a reader reads has a property if everything it is put together from has: this is
carried through sequences, alternatives and repetitions. In this way, all values in
the statements of a text are keyed. A scalar is no table, and an inline table gets
its entries one by one, each of them under a key which is new in the table its path
ends in; the values of these entries are keyed because they are nested less deeply.

* `Reader.Reads`: a property of all that a reader reads;
* `keyed_addInline`: a further value keeps an inline table keyed;
* `readsKeyed_value`: values are keyed, to any depth;
* `keyed_of_readStatements`: and so are all values in statements.
-/

namespace CapacityExpansion.Toml

/-! ## Readers -/

namespace Reader

variable {α β : Type} {p : α → Prop} {q : β → Prop} {reader : Reader α}

/-- All that a reader reads has a property. -/
def Reads (reader : Reader α) (p : α → Prop) : Prop :=
  ∀ text a rest, reader.run text = some (a, rest) → p a

theorem reads_any (reader : Reader α) : Reads reader fun _ => True := fun _ _ _ _ => trivial

theorem reads_nothing : Reads (nothing : Reader α) p := nofun

theorem reads_pure {a : α} (h : p a) : Reads (pure a) p := by
  rintro text _ rest ⟨⟩
  exact h

theorem Reads.bind {next : α → Reader β} (h : Reads reader p)
    (hnext : ∀ a, p a → Reads (next a) q) : Reads (reader >>= next) q := by
  intro text b rest hrun
  rw [StateT.run_bind, Option.bind_eq_bind, Option.bind_eq_some_iff] at hrun
  obtain ⟨⟨a, between⟩, ha, hb⟩ := hrun
  exact hnext a (h text a between ha) between b rest hb

/-- A reader of which it does not matter what it reads, and another one after it. -/
theorem Reads.after {next : α → Reader β} (h : ∀ a, Reads (next a) q) :
    Reads (reader >>= next) q :=
  (reads_any reader).bind fun a _ => h a

theorem Reads.map {f : α → β} (h : Reads reader p) (hf : ∀ a, p a → q (f a)) :
    Reads (f <$> reader) q := by
  rw [← bind_pure_comp]
  exact h.bind fun a ha => reads_pure (hf a ha)

theorem reads_orNone (h : Reads reader p) : Reads (orNone reader) fun found => ∀ a ∈ found, p a := by
  rintro text _ rest hrun a ⟨⟩
  rw [orNone, StateT.run_orElse, StateT.run_map] at hrun
  rcases hread : reader.run text with _ | ⟨b, after⟩
  · rw [hread] at hrun
    cases hrun
  · rw [hread] at hrun
    obtain ⟨⟩ := hrun
    exact h text _ _ hread

theorem reads_upTo (h : Reads reader p) (n : Nat) :
    Reads (upTo reader n) fun list => ∀ a ∈ list, p a := by
  induction n with
  | zero => exact reads_pure nofun
  | succ n ih =>
    refine (reads_orNone h).bind fun a? ha => ?_
    rcases a? with _ | a
    · exact reads_pure nofun
    · exact ih.bind fun list hlist => reads_pure (List.forall_mem_cons.2 ⟨ha a rfl, hlist⟩)

theorem reads_many (h : Reads reader p) : Reads (many reader) fun list => ∀ a ∈ list, p a :=
  .after fun text => reads_upTo h text.length

theorem reads_separated (h : Reads reader p) (mark : Char) :
    Reads (separated mark reader) fun list => ∀ a ∈ list, p a := by
  refine h.bind fun first hfirst => ?_
  refine (reads_many (.after fun _ => h)).bind fun list hlist => ?_
  exact reads_pure (List.forall_mem_cons.2 ⟨hfirst, hlist⟩)

end Reader

open Reader

/-! ## Values -/

/-- A value which has no key twice if it is a table. -/
def KeyedValue (v : Value) : Prop := ∀ t, v = .table t → Keyed t

/-- There is no table. -/
def Plain (found : Option Value) : Prop := ∀ t, found ≠ some (.table t)

theorem plain_none : Plain none := fun _ e => Option.some_ne_none _ e.symm

theorem plain_some {v : Value} (h : ∀ t, v ≠ .table t) : Plain (some v) :=
  fun t e => h t (Option.some.inj e)

theorem Plain.bind {α : Type} {found : Option α} {next : α → Option Value}
    (h : ∀ a, Plain (next a)) : Plain (found.bind next) := by
  intro t ht
  obtain ⟨a, -, ha⟩ := Option.bind_eq_some_iff.1 ht
  exact h a t ha

theorem plain_boundedInteger? (n : Int) : Plain (boundedInteger? n) := by
  rw [boundedInteger?]
  split
  · exact plain_some nofun
  · exact plain_none

theorem plain_basedInteger? (base : Nat) (text : List Char) : Plain (basedInteger? base text) :=
  .bind fun _ => plain_boundedInteger? _

theorem plain_integer? (text : List Char) : Plain (integer? text) := by
  rw [integer?.eq_def]
  split
  · exact plain_basedInteger? 16 _
  · exact plain_basedInteger? 8 _
  · exact plain_basedInteger? 2 _
  · exact .bind fun _ => plain_boundedInteger? _

theorem plain_decimal? (negative : Bool) (whole fraction : List Char) (exponent : Int) :
    Plain (decimal? negative whole fraction exponent) := by
  rw [decimal?]
  split
  · exact plain_none
  · exact plain_some nofun

theorem plain_real? (text : List Char) : Plain (real? text) := by
  have hreal (x : Float) : Plain (some (.real x)) := plain_some nofun
  rw [real?]
  rcases splitSign text with ⟨negative, magnitude⟩
  dsimp only
  split
  · exact hreal _
  · split
    · exact hreal _
    · refine .bind fun whole => ?_
      split
      · refine .bind fun fraction => ?_
        split
        · exact plain_decimal? _ _ _ _
        · exact .bind fun _ => plain_decimal? _ _ _ _
      · split
        · exact .bind fun _ => plain_decimal? _ _ _ _
        · exact plain_none
      · exact plain_none

theorem plain_scalar? (word : List Char) : Plain (scalar? word) := by
  have hboolean (b : Bool) : Plain (some (.boolean b)) := plain_some nofun
  rw [scalar?]
  split
  · exact hboolean true
  · split
    · exact hboolean false
    · intro t ht
      rw [Option.or_eq_some_iff, Option.or_eq_some_iff] at ht
      obtain ht | ⟨-, ht | ⟨-, ht⟩⟩ := ht
      · obtain ⟨_, -, ⟨⟩⟩ := Option.map_eq_some_iff.1 ht
      · exact plain_integer? word t ht
      · exact plain_real? word t ht

/-- No scalar is a table. -/
theorem reads_readScalar : Reads (ofRead readScalar) KeyedValue := by
  rintro text _ rest hrun t rfl
  change readScalar text = some (.table t, rest) at hrun
  simp only [readScalar] at hrun
  split at hrun
  · obtain ⟨_, hv, ⟨⟩⟩ := Option.bind_eq_some_iff.1 hrun
    exact absurd hv (plain_scalar? _ t)
  · obtain ⟨_, hv, ⟨⟩⟩ := Option.bind_eq_some_iff.1 hrun
    exact absurd hv (plain_scalar? _ t)

/-! ## Inline tables -/

theorem Inline.toEntries_eq (entries : List (String × Inline)) :
    Inline.toEntries entries = entries.map (Prod.map id Inline.toValue) := by
  induction entries with
  | nil => rw [Inline.toEntries, List.map_nil]
  | cons entry entries ih =>
    rw [Inline.toEntries, ih]
    rfl

theorem Inline.lookUp?_toEntries (entries : List (String × Inline)) (key : String) :
    lookUp? (Inline.toEntries entries) key = (lookUp? entries key).map Inline.toValue := by
  rw [Inline.toEntries_eq, lookUp?_map]

theorem Inline.toEntries_setEntry (key : String) (part : Inline) (entries : List (String × Inline)) :
    Inline.toEntries (setEntry key part entries) =
      setEntry key part.toValue (Inline.toEntries entries) := by
  rw [Inline.toEntries_eq, setEntry_map, Inline.toEntries_eq]

theorem Inline.keyed_nil : Keyed (Inline.toEntries []) := by
  rw [Inline.toEntries]
  exact .nil

/-- A further value keeps an inline table keyed. -/
theorem keyed_addInline {key : String} {v : Value} (hv : KeyedValue v) {path : List String}
    {entries after : List (String × Inline)} (hkeyed : Keyed (Inline.toEntries entries))
    (h : addInline key v path entries = some after) : Keyed (Inline.toEntries after) := by
  induction path generalizing entries after with
  | nil =>
    rw [addInline] at h
    split at h
    · cases h
    · next hnew =>
      rw [Bool.not_eq_true, Option.isSome_eq_false_iff, Option.isNone_iff_eq_none] at hnew
      rw [Option.some.injEq, ← setEntry_of_new hnew] at h
      rw [← h, Inline.toEntries_setEntry]
      exact hkeyed.setEntry hv
  | cons first path ih =>
    -- What the path goes into is keyed, whether it is there already or not.
    have hset : ∀ {inner inner' : List (String × Inline)}, Keyed (Inline.toEntries inner) →
        addInline key v path inner = some inner' →
        Keyed (Inline.toEntries (setEntry first (.dotted inner') entries)) := by
      intro inner inner' hinner h'
      rw [Inline.toEntries_setEntry]
      refine hkeyed.setEntry ?_
      rintro _ ⟨⟩
      exact ih hinner h'
    rw [addInline] at h
    split at h
    · cases h
    · next inner hlook =>
      obtain ⟨inner', h', ⟨⟩⟩ := Option.bind_eq_some_iff.1 h
      have hinner : lookUp? (Inline.toEntries entries) first =
          some (.table (Inline.toEntries inner)) := by
        rw [Inline.lookUp?_toEntries, hlook, Option.map_some, Inline.toValue]
      exact hset (hkeyed.inner hinner) h'
    · obtain ⟨inner', h', ⟨⟩⟩ := Option.bind_eq_some_iff.1 h
      exact hset Inline.keyed_nil h'

/-- A property which every step keeps holds in the end. -/
theorem foldlM_some_invariant {α β : Type} {f : β → α → Option β} (I : β → Prop) {l : List α}
    (hstep : ∀ b, I b → ∀ a ∈ l, ∀ b', f b a = some b' → I b') {b b' : β} (hb : I b)
    (h : l.foldlM f b = some b') : I b' := by
  induction l generalizing b with
  | nil =>
    cases h
    exact hb
  | cons a l ih =>
    rw [List.foldlM_cons] at h
    obtain ⟨c, hc, h⟩ := Option.bind_eq_some_iff.1 h
    exact ih (fun b hb a ha => hstep b hb a (List.mem_cons_of_mem _ ha))
      (hstep b hb a List.mem_cons_self c hc) h

theorem keyed_inlineTable? {list : List Assignment} (hlist : ∀ a ∈ list, KeyedValue a.value)
    {t : Table} (h : inlineTable? list = some t) : Keyed t := by
  obtain ⟨entries, hentries, rfl⟩ := Option.map_eq_some_iff.1 h
  refine foldlM_some_invariant (fun entries => Keyed (Inline.toEntries entries)) ?_
    Inline.keyed_nil hentries
  exact fun before hbefore a ha after hafter => keyed_addInline (hlist a ha) hbefore hafter

/-! ## Statements -/

/-- An assignment of a value which is keyed. -/
def Assignment.Keyed (a : Assignment) : Prop := KeyedValue a.value

theorem readsKeyed_assignment {value : Reader Value} (h : Reads value KeyedValue) :
    Reads (assignment value) Assignment.Keyed :=
  .after fun _ => .after fun _ => .after fun _ => h.bind fun _ hv => reads_pure hv

theorem readsKeyed_assignments {value : Reader Value} (h : Reads value KeyedValue) :
    Reads (assignments value) fun list => ∀ a ∈ list, a.Keyed := by
  refine .after fun _ => ?_
  have hone : Reads (assignment value <* blanks) Assignment.Keyed :=
    (readsKeyed_assignment h).bind fun a ha => .after fun _ => reads_pure ha
  refine (reads_orNone (reads_separated hone ',')).bind fun found hfound => ?_
  rcases found with _ | list
  · exact reads_pure nofun
  · exact reads_pure (hfound list rfl)

/-- All values are keyed, to any depth. -/
theorem readsKeyed_value (depth : Nat) : Reads (value depth) KeyedValue := by
  have hstring : Reads (Value.string <$> ofRead readString) KeyedValue :=
    (reads_any _).map fun _ _ => nofun
  induction depth with
  | zero =>
    refine .after fun c => ?_
    split
    · exact hstring
    · exact reads_readScalar
  | succ depth ih =>
    refine .after fun c => ?_
    split
    · exact .after fun _ => .after fun _ => .after fun _ => .after fun _ => reads_pure nofun
    · split
      · -- The values in an inline table are nested less deeply than the table.
        refine .after fun _ => (readsKeyed_assignments ih).bind fun list hlist => ?_
        refine .after fun _ => .after fun _ => ?_
        split
        · next t ht =>
          refine reads_pure ?_
          rintro _ ⟨⟩
          exact keyed_inlineTable? hlist ht
        · exact reads_nothing
      · split
        · exact hstring
        · exact reads_readScalar

/-- A statement which assigns a keyed value, if it assigns any. -/
def Statement.Keyed (s : Statement) : Prop := ∀ a, s = .assign a → a.Keyed

theorem readsKeyed_header : Reads header Statement.Keyed := by
  refine .after fun _ => .after fun text => ?_
  split
  · exact .after fun _ => .after fun _ => .after fun _ => .after fun _ => reads_pure nofun
  · exact .after fun _ => .after fun _ => reads_pure nofun

theorem readsKeyed_line : Reads line fun found => ∀ s ∈ found, s.Keyed := by
  have hend : ∀ found : Option Statement, (∀ s ∈ found, s.Keyed) →
      Reads (trailing >>= fun _ => pure found) fun found => ∀ s ∈ found, s.Keyed :=
    fun found hfound => .after fun _ => reads_pure hfound
  have hheader : Reads (some <$> header) fun found => ∀ s ∈ found, s.Keyed := by
    refine readsKeyed_header.map ?_
    rintro s hs _ ⟨⟩
    exact hs
  have hassign : Reads ((some ∘ Statement.assign) <$> assignment (value (nestingLimit - 1)))
      fun found => ∀ s ∈ found, s.Keyed := by
    refine (readsKeyed_assignment (readsKeyed_value _)).map ?_
    rintro a ha _ ⟨⟩ _ ⟨⟩
    exact ha
  refine .after fun _ => .after fun c => ?_
  split
  · exact hend none nofun
  · split
    · exact hheader.bind hend
    · exact hassign.bind hend

/-- All values in the statements of a text are keyed. -/
theorem keyed_of_readStatements {text : String} {statements : List Statement}
    (h : readStatements text = some statements) : ∀ s ∈ statements, s.Keyed := by
  obtain ⟨⟨lines, rest⟩, hlines, h⟩ := Option.bind_eq_some_iff.1 h
  obtain ⟨_, -, ⟨⟩⟩ := Option.bind_eq_some_iff.1 h
  have hall : Reads (many line <* blanks) fun lines => ∀ found ∈ lines, ∀ s ∈ found, s.Keyed :=
    (reads_many readsKeyed_line).bind fun lines hlines => .after fun _ => reads_pure hlines
  intro s hs
  rw [List.mem_filterMap] at hs
  obtain ⟨found, hfound, hs⟩ := hs
  exact hall _ _ _ hlines found hfound s hs

end CapacityExpansion.Toml
