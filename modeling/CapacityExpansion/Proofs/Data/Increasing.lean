import CapacityExpansion.Data.Sorting
import Mathlib.Data.List.Chain
import Mathlib.Data.List.Nodup

/-!
# Increasing lists

Lists sorted by distinct numbers. Such a list is determined by its members, so
two ways of arranging the same things in order give the same list.

A *block* of an increasing list consists of the members with a given name. It is
contiguous if nothing else lies between two of its members. When all blocks are
contiguous and arranged by their first members, they make up the list again.

* `increasing_sortOn`, `Increasing.ext`: sorting distinct keys, and uniqueness;
* `pairwise_sortOn_of_pairwise`: sorting is stable;
* `isChain_filter_succ_iff`: blocks whose positions follow each other are the
  contiguous ones;
* `flatMap_blocks`: the blocks in order are the list.
-/

namespace CapacityExpansion

variable {α ν : Type} {key pos : α → Nat} {l m : List α}

/-- The keys of a list increase strictly. -/
def Increasing (key : α → Nat) (l : List α) : Prop := l.Pairwise fun a b => key a < key b

theorem increasing_iff_map : Increasing key l ↔ (l.map key).Pairwise (· < ·) :=
  List.pairwise_map.symm

theorem sortOn_perm (key : α → Nat) (l : List α) : (sortOn key l).Perm l := sortBy_perm _ l

@[simp] theorem mem_sortOn {a : α} : a ∈ sortOn key l ↔ a ∈ l := (sortOn_perm key l).mem_iff

theorem pairwise_sortOn (key : α → Nat) (l : List α) :
    (sortOn key l).Pairwise fun a b => key a ≤ key b := by
  let le (a b : α) : Bool := decide (key a ≤ key b)
  have htotal : ∀ a b, le a b ∨ le b a := fun a b => by
    simpa only [le, decide_eq_true_eq] using Nat.le_total (key a) (key b)
  have htrans : ∀ a b c, le a b → le b c → le a c := fun a b c hab hbc =>
    decide_eq_true (Nat.le_trans (of_decide_eq_true hab) (of_decide_eq_true hbc))
  exact (pairwise_sortBy htotal htrans l).imp fun hab => of_decide_eq_true hab

/-- Sorting does not see a change of the elements which keeps the order of their keys. -/
theorem sortOn_map {β : Type} {key' : β → Nat} {u : α → β}
    (hu : ∀ a b, key' (u a) ≤ key' (u b) ↔ key a ≤ key b) (l : List α) :
    sortOn key' (l.map u) = (sortOn key l).map u := by
  have hinsert : ∀ a l, insertBy (fun a b => decide (key' a ≤ key' b)) (u a) (l.map u) =
      (insertBy (fun a b => decide (key a ≤ key b)) a l).map u := by
    intro a l
    induction l with
    | nil => rfl
    | cons b l ih =>
      simp only [List.map_cons, insertBy, hu, ih]
      split <;> rfl
  induction l with
  | nil => rfl
  | cons a l ih =>
    rw [sortOn, sortOn] at ih ⊢
    rw [List.map_cons, sortBy, sortBy, ih, hinsert]

/-- What comes before all of a list in the order of `R` is put before those with the same key. -/
theorem pairwise_insertBy_of_pairwise {R : α → α → Prop} {a : α} (ha : ∀ b ∈ l, R a b)
    (h : l.Pairwise fun a b => key a < key b ∨ key a = key b ∧ R a b) :
    (insertBy (fun a b => decide (key a ≤ key b)) a l).Pairwise
      fun a b => key a < key b ∨ key a = key b ∧ R a b := by
  induction l with
  | nil => exact List.pairwise_singleton _ a
  | cons b l ih =>
    have hb := List.pairwise_cons.1 h
    rw [List.forall_mem_cons] at ha
    simp only [insertBy, decide_eq_true_eq]
    split
    · next hab =>
      refine List.pairwise_cons.2 ⟨List.forall_mem_cons.2 ⟨?_, fun c hc => ?_⟩, h⟩
      · exact (Nat.lt_or_eq_of_le hab).imp_right fun e => ⟨e, ha.1⟩
      · have hbc : key b ≤ key c := by
          have := hb.1 c hc
          omega
        exact (Nat.lt_or_eq_of_le (Nat.le_trans hab hbc)).imp_right fun e => ⟨e, ha.2 c hc⟩
    · next hab =>
      refine List.pairwise_cons.2 ⟨fun c hc => ?_, ih ha.2 hb.2⟩
      rcases List.mem_cons.1 ((insertBy_perm _ a l).mem_iff.1 hc) with rfl | hc
      · exact .inl (Nat.lt_of_not_le hab)
      · exact hb.1 c hc

/-- Sorting keeps the order of what has the same key: what is in the order of `R` before is in the
    order of keys and, for the same key, in that of `R` afterwards. -/
theorem pairwise_sortOn_of_pairwise {R : α → α → Prop} (h : l.Pairwise R) :
    (sortOn key l).Pairwise fun a b => key a < key b ∨ key a = key b ∧ R a b := by
  induction l with
  | nil => exact .nil
  | cons a l ih =>
    rw [List.pairwise_cons] at h
    exact pairwise_insertBy_of_pairwise (fun b hb => h.1 b (mem_sortOn.1 hb)) (ih h.2)

/-- Sorting by distinct keys gives an increasing list. -/
theorem increasing_sortOn (h : (l.map key).Nodup) : Increasing key (sortOn key l) := by
  have hne : (sortOn key l).Pairwise fun a b => key a ≠ key b :=
    List.pairwise_map.1 (((sortOn_perm key l).map key).nodup_iff.2 h)
  exact (pairwise_sortOn key l).imp₂ (fun _ _ hle hne => Nat.lt_of_le_of_ne hle hne) hne

namespace Increasing

theorem filter (h : Increasing key l) (p : α → Bool) : Increasing key (l.filter p) :=
  List.Pairwise.filter p h

theorem nodup (h : Increasing key l) : l.Nodup :=
  List.Pairwise.imp (fun hab e => absurd hab (by rw [e]; exact Nat.lt_irrefl _)) h

theorem nodup_map (h : Increasing key l) : (l.map key).Nodup :=
  List.pairwise_map.2 (h.imp fun hab => Nat.ne_of_lt hab)

/-- Another list with the same keys increases as well. -/
theorem of_map_eq {β : Type} {key' : β → Nat} {m : List β} (h : Increasing key l)
    (e : l.map key = m.map key') : Increasing key' m := by
  rw [increasing_iff_map] at h ⊢
  rwa [← e]

/-- A member of an increasing list is determined by its key. -/
theorem eq_of_key_eq (h : Increasing key l) {a b : α} (ha : a ∈ l) (hb : b ∈ l)
    (e : key a = key b) : a = b :=
  List.inj_on_of_nodup_map h.nodup_map ha hb e

/-- An increasing list is determined by its members. -/
theorem ext (hl : Increasing key l) (hm : Increasing key m) (h : ∀ a, a ∈ l ↔ a ∈ m) : l = m :=
  ((List.perm_ext_iff_of_nodup hl.nodup hm.nodup).2 h).eq_of_pairwise
    (fun _ _ _ _ hab hba => absurd hba (Nat.lt_asymm hab)) hl hm

/-- Of two members of a list which increases in two keys, both keys tell which comes first. -/
theorem le_iff_le (hkey : Increasing key l) (hpos : Increasing pos l) {a b : α} (ha : a ∈ l)
    (hb : b ∈ l) : pos a ≤ pos b ↔ key a ≤ key b := by
  have hle : l.Pairwise fun a b => pos a ≤ pos b ↔ key a ≤ key b :=
    List.Pairwise.imp₂ (fun _ _ hk hp => by omega) hkey hpos
  have hge : l.Pairwise (flip fun a b => pos a ≤ pos b ↔ key a ≤ key b) :=
    List.Pairwise.imp₂ (fun _ _ hk hp => by simp only [flip]; omega) hkey hpos
  exact List.Pairwise.forall_of_forall_of_flip (fun _ _ => by simp) hle hge ha hb

theorem getElem_le_iff (h : Increasing key l) {i j : Nat} (hi : i < l.length) (hj : j < l.length) :
    key l[i] ≤ key l[j] ↔ i ≤ j := by
  rw [Increasing, List.pairwise_iff_getElem] at h
  rcases Nat.lt_trichotomy i j with hij | rfl | hij
  · exact iff_of_true (Nat.le_of_lt (h i j hi hj hij)) (Nat.le_of_lt hij)
  · simp
  · exact iff_of_false (Nat.not_le_of_lt (h j i hj hi hij)) (Nat.not_le_of_lt hij)

theorem head?_eq_some_iff (h : Increasing key l) {a : α} :
    l.head? = some a ↔ a ∈ l ∧ ∀ b ∈ l, key a ≤ key b := by
  cases l with
  | nil => simp
  | cons x l =>
    rw [List.head?_cons, Option.some.injEq]
    constructor
    · rintro rfl
      exact ⟨List.mem_cons_self, List.forall_mem_cons.2 ⟨Nat.le_refl _, fun b hb =>
        Nat.le_of_lt ((List.pairwise_cons.1 h).1 b hb)⟩⟩
    · rintro ⟨ha, hle⟩
      have hxa : key x ≤ key a := by
        rcases List.mem_cons.1 ha with rfl | ha
        · exact Nat.le_refl _
        · exact Nat.le_of_lt ((List.pairwise_cons.1 h).1 a ha)
      exact h.eq_of_key_eq List.mem_cons_self ha (Nat.le_antisymm hxa (hle x List.mem_cons_self))

theorem getLast?_eq_some_iff (h : Increasing key l) {a : α} :
    l.getLast? = some a ↔ a ∈ l ∧ ∀ b ∈ l, key b ≤ key a := by
  have hlast : ∀ {c : α}, l.getLast? = some c → c ∈ l ∧ ∀ b ∈ l, key b ≤ key c := by
    intro c hc
    obtain ⟨before, rfl⟩ := List.getLast?_eq_some_iff.1 hc
    rw [Increasing, List.pairwise_append] at h
    refine ⟨List.mem_append_right _ (List.mem_singleton_self c), fun b hb => ?_⟩
    rcases List.mem_append.1 hb with hb | hb
    · exact Nat.le_of_lt (h.2.2 b hb c (List.mem_singleton_self c))
    · rw [List.mem_singleton.1 hb]
  refine ⟨hlast, fun ⟨ha, hle⟩ => ?_⟩
  obtain ⟨c, hc⟩ : ∃ c, l.getLast? = some c :=
    ⟨_, List.getLast?_eq_some_getLast (List.ne_nil_of_mem ha)⟩
  obtain ⟨hmem, hlec⟩ := hlast hc
  rw [hc, h.eq_of_key_eq ha hmem (Nat.le_antisymm (hlec a ha) (hle c hmem))]

end Increasing

/-! ## Positions -/

/-- In a list without repetitions the positions increase. -/
theorem increasing_idxOf [DecidableEq α] (h : l.Nodup) : Increasing l.idxOf l := by
  rw [Increasing, List.pairwise_iff_getElem]
  intro i j hi hj hij
  rwa [h.idxOf_getElem i hi, h.idxOf_getElem j hj]

theorem idxOf_le_idxOf_iff {ns : List Nat} (h : Increasing id ns) {a c : Nat} (ha : a ∈ ns)
    (hc : c ∈ ns) : ns.idxOf a ≤ ns.idxOf c ↔ a ≤ c := by
  have hi := List.idxOf_lt_length_of_mem ha
  have hj := List.idxOf_lt_length_of_mem hc
  have hle := h.getElem_le_iff hi hj
  rw [List.getElem_idxOf, List.getElem_idxOf] at hle
  exact hle.symm

/-- From one number of an increasing list up to another one are all those between them. -/
theorem mem_slice_iff {ns : List Nat} (h : Increasing id ns) {a b c : Nat} (ha : a ∈ ns)
    (hc : c ∈ ns) (hac : a ≤ c) :
    b ∈ (ns.drop (ns.idxOf a)).take (ns.idxOf c - ns.idxOf a + 1) ↔ b ∈ ns ∧ a ≤ b ∧ b ≤ c := by
  have hle := (idxOf_le_idxOf_iff h ha hc).2 hac
  have hj := List.idxOf_lt_length_of_mem hc
  constructor
  · intro hb
    obtain ⟨k, hk, rfl⟩ := List.mem_take_iff_getElem.1 hb
    rw [List.length_drop] at hk
    rw [List.getElem_drop]
    have hab := (h.getElem_le_iff (i := ns.idxOf a) (j := ns.idxOf a + k) (by omega) (by omega)).2
      (by omega)
    have hbc := (h.getElem_le_iff (i := ns.idxOf a + k) (j := ns.idxOf c) (by omega) (by omega)).2
      (by omega)
    rw [List.getElem_idxOf] at hab hbc
    exact ⟨List.getElem_mem _, hab, hbc⟩
  · rintro ⟨hb, hab, hbc⟩
    rw [← idxOf_le_idxOf_iff h ha hb] at hab
    rw [← idxOf_le_idxOf_iff h hb hc] at hbc
    have hk := List.idxOf_lt_length_of_mem hb
    refine List.mem_take_iff_getElem.2
      ⟨ns.idxOf b - ns.idxOf a, by rw [List.length_drop]; omega, ?_⟩
    rw [List.getElem_drop]
    have e : ns.idxOf a + (ns.idxOf b - ns.idxOf a) = ns.idxOf b := by omega
    simp only [e, List.getElem_idxOf]

/-- What an increasing list has from one number up to another one is what lies between them. -/
theorem slice_eq_filter {ns : List Nat} (h : Increasing id ns) {a c : Nat} (ha : a ∈ ns)
    (hc : c ∈ ns) (hac : a ≤ c) :
    (ns.drop (ns.idxOf a)).take (ns.idxOf c - ns.idxOf a + 1) =
      ns.filter fun b => a ≤ b ∧ b ≤ c := by
  have hslice : Increasing id ((ns.drop (ns.idxOf a)).take (ns.idxOf c - ns.idxOf a + 1)) :=
    List.Pairwise.sublist ((List.take_sublist _ _).trans (List.drop_sublist _ _)) h
  refine hslice.ext (h.filter _) fun b => ?_
  rw [mem_slice_iff h ha hc hac, List.mem_filter, decide_eq_true_iff]

/-! ## Contiguous blocks -/

/-- Nothing else lies between two of the members which `p` selects. -/
def Contiguous (key : α → Nat) (l : List α) (p : α → Prop) : Prop :=
  ∀ a ∈ l, ∀ b ∈ l, ∀ c ∈ l, p a → p c → key a ≤ key b → key b ≤ key c → p b

/-- Numbers which follow each other leave none out. -/
theorem exists_of_isChain_succ (h : l.IsChain fun a b => pos a + 1 = pos b)
    (hinc : Increasing pos l) {a c : α} (ha : a ∈ l) (hc : c ∈ l) {i : Nat} (hai : pos a ≤ i)
    (hic : i ≤ pos c) : ∃ b ∈ l, pos b = i := by
  induction l generalizing a with
  | nil => exact absurd hc List.not_mem_nil
  | cons x l ih =>
    rw [Increasing, List.pairwise_cons] at hinc
    rw [List.isChain_cons] at h
    by_cases hi : pos x = i
    · exact ⟨x, List.mem_cons_self, hi⟩
    · have hc' : c ∈ l := by
        rcases List.mem_cons.1 hc with rfl | hc
        · rcases List.mem_cons.1 ha with rfl | ha
          · omega
          · have := hinc.1 a ha
            omega
        · exact hc
      obtain ⟨y, l, rfl⟩ := List.exists_cons_of_ne_nil (List.ne_nil_of_mem hc')
      -- The number is not the first one, so the search may go on from the second.
      have hyi : pos y ≤ i := by
        have hxy := h.1 y rfl
        rcases List.mem_cons.1 ha with rfl | ha
        · omega
        · rcases List.mem_cons.1 ha with rfl | ha
          · exact hai
          · have := (List.pairwise_cons.1 hinc.2).1 a ha
            omega
      obtain ⟨b, hb, e⟩ := ih h.2 hinc.2 List.mem_cons_self hc' hyi
      exact ⟨b, List.mem_cons_of_mem _ hb, e⟩

/-- Selected members with numbers which follow each other are contiguous ones. -/
theorem contiguous_of_isChain (hkey : Increasing key l) (hpos : Increasing pos l) {p : α → Bool}
    (h : (l.filter p).IsChain fun a b => pos a + 1 = pos b) : Contiguous key l (p ·) := by
  intro a ha b hb c hc hpa hpc hab hbc
  rw [← hkey.le_iff_le hpos ha hb] at hab
  rw [← hkey.le_iff_le hpos hb hc] at hbc
  obtain ⟨d, hd, e⟩ := exists_of_isChain_succ h (hpos.filter p) (List.mem_filter.2 ⟨ha, hpa⟩)
    (List.mem_filter.2 ⟨hc, hpc⟩) hab hbc
  rw [List.mem_filter] at hd
  rw [← hpos.eq_of_key_eq hd.1 hb e]
  exact hd.2

/-- In a list which leaves no number out between two neighbours, their numbers follow each other. -/
theorem isChain_succ_of_exists (hpos : Increasing pos l)
    (h : ∀ a ∈ l, ∀ c ∈ l, pos a < pos c → ∃ b ∈ l, pos b = pos a + 1) :
    l.IsChain fun a b => pos a + 1 = pos b := by
  rw [List.isChain_iff_forall_rel_of_append_cons_cons]
  rintro a c before after rfl
  rw [Increasing, List.pairwise_append, List.pairwise_cons, List.pairwise_cons] at hpos
  obtain ⟨-, ⟨ha, hc, -⟩, hbefore⟩ := hpos
  have hac := ha c List.mem_cons_self
  obtain ⟨b, hb, e⟩ := h a (by simp) c (by simp) hac
  -- The member numbered next after `a` is neither one up to `a` nor one after `c`.
  rcases List.mem_append.1 hb with hb | hb
  · have := hbefore b hb a List.mem_cons_self
    omega
  · rcases List.mem_cons.1 hb with rfl | hb
    · omega
    · rcases List.mem_cons.1 hb with rfl | hb
      · exact e.symm
      · have := hc b hb
        omega

/-- In a numbered list, the numbers of selected members follow each other if and only if the members
    are contiguous. -/
theorem isChain_filter_succ_iff {n : Nat} (hkey : Increasing key l)
    (hpos : l.map pos = List.range n) (p : α → Bool) :
    (l.filter p).IsChain (fun a b => pos a + 1 = pos b) ↔ Contiguous key l (p ·) := by
  have hinc : Increasing pos l := by
    rw [increasing_iff_map, hpos]
    exact List.pairwise_lt_range
  refine ⟨contiguous_of_isChain hkey hinc, fun h => ?_⟩
  refine isChain_succ_of_exists (hinc.filter p) fun a ha c hc hac => ?_
  rw [List.mem_filter] at ha hc
  -- The next number is one of the list, and what it numbers lies between `a` and `c`.
  obtain ⟨b, hb, e⟩ : ∃ b ∈ l, pos b = pos a + 1 := by
    have hcn : pos c ∈ List.range n := hpos ▸ List.mem_map_of_mem hc.1
    rw [List.mem_range] at hcn
    exact List.mem_map.1 (by rw [hpos, List.mem_range]; omega)
  have hpb := h a ha.1 b hb c hc.1 ha.2 hc.2 ((hkey.le_iff_le hinc ha.1 hb).1 (by omega))
    ((hkey.le_iff_le hinc hb hc.1).1 (by omega))
  exact ⟨b, List.mem_filter.2 ⟨hb, hpb⟩, e⟩

/-- Contiguous blocks with distinct names, each with a member not beyond the blocks which follow,
    make up the list, if every member has one of the names. -/
theorem flatMap_blocks [DecidableEq ν] (hkey : Increasing key l) (name : α → ν) (names : List ν)
    (hname : ∀ a ∈ l, name a ∈ names) (hnodup : names.Nodup)
    (hcontiguous : ∀ n ∈ names, Contiguous key l (name · = n))
    (hfirst : names.Pairwise fun m n =>
      ∃ a ∈ l, name a = m ∧ ∀ b ∈ l, name b = n → key a ≤ key b) :
    (names.flatMap fun n => l.filter (name · == n)) = l := by
  refine Increasing.ext ?_ hkey fun a => ?_
  · rw [Increasing, List.pairwise_flatMap]
    refine ⟨fun n _ => hkey.filter _, ?_⟩
    have hpairs := List.Pairwise.and_mem.1 (hfirst.and hnodup)
    refine hpairs.imp fun {m n} ⟨hm, hn, ⟨a, ha, hnm, hle⟩, hne⟩ b hb c hc => ?_
    simp only [List.mem_filter, beq_iff_eq] at hb hc
    -- If `c` came before `b`, it would lie between `a` and `b`, hence in their block.
    by_contra hbc
    refine hne ?_
    rw [← hc.2]
    exact (hcontiguous m hm a ha c hc.1 b hb.1 hnm hb.2 (hle c hc.1 hc.2) (by omega)).symm
  · simp only [List.mem_flatMap, List.mem_filter, beq_iff_eq]
    exact ⟨fun ⟨_, _, ha, _⟩ => ha, fun ha => ⟨name a, hname a ha, ha, rfl⟩⟩

end CapacityExpansion
