import CapacityExpansion.Proofs.Files.Places

/-!
# Paths resolved lexically

A path can be resolved without a look at any files: a dot means nothing, and two dots take
back the name before them. What is left are steps up from where the path starts, and the names
from there on. If the path leads anywhere, then it leads there.

A path below a folder can leave it again, by as many dots as the folder has names; and it can
come back by the same names.

* `Lexical.ofText`: a path, resolved;
* `place_eq_of_locate`: where a path leads;
* `Lexical.foldl_step`, `Lexical.ofText_join`: a path from a folder;
* `Lexical.Below`, `Lexical.exists_place_eq_append`: what is strictly below a folder;
* `Lexical.below_along_iff`: when a path from a folder stays below it.
-/

namespace CapacityExpansion.Files

/-- A path resolved lexically: whether it starts at the root, how many folders it goes up, and the
    names from there on. -/
structure Lexical where
  /-- Whether it starts at the root. -/
  absolute : Bool := false
  /-- The number of folders it goes up. -/
  ups : Nat := 0
  /-- The names from there on. -/
  names : List String := []
  deriving DecidableEq, Repr

namespace Lexical

/-- The folder above. Above the root there is the root. -/
def up (l : Lexical) : Lexical :=
  if l.names ≠ [] then { l with names := l.names.dropLast }
  else if l.absolute then l
  else { l with ups := l.ups + 1 }

/-- What the next piece of a path leads to. -/
def step (l : Lexical) (piece : String) : Lexical :=
  if piece = "." then l
  else if piece = ".." then l.up
  else { l with names := l.names ++ [piece] }

/-- A path, resolved. -/
def ofText (path : String) : Lexical :=
  (Path.ofText path).pieces.foldl step { absolute := isAbsolute path }

/-- The place which a path stands for in a current folder. -/
def place (l : Lexical) (current : Place) : Place :=
  (if l.absolute then [] else current.take (current.length - l.ups)) ++ l.names

variable {l base : Lexical} {pieces : List String} {piece name : String} {current : Place}

/-! ## Where a path leads -/

/-- The last of some names is the next one to be taken back. -/
theorem dropLast_take_sub (names : List String) (n : Nat) :
    (names.take (names.length - n)).dropLast = names.take (names.length - (n + 1)) := by
  rw [List.dropLast_eq_take, List.take_take, List.length_take]
  congr 1
  omega

theorem place_up (l : Lexical) (current : Place) :
    l.up.place current = (l.place current).dropLast := by
  rw [up]
  split
  · next hnames =>
    rw [place, place, List.dropLast_append_of_ne_nil hnames]
  · next hnames =>
    rw [not_not] at hnames
    split
    · next habsolute =>
      rw [place, hnames, habsolute, if_pos rfl, List.append_nil, List.dropLast_nil]
    · next hrelative =>
      rw [place, place, hnames, if_neg hrelative, if_neg hrelative, List.append_nil,
        List.append_nil, dropLast_take_sub]

theorem place_step_of_enter {q : Place} (h : enter (l.place current) piece = .ok q) :
    q = (l.step piece).place current := by
  rw [enter] at h
  rw [step]
  split at h
  · next hdot =>
    rw [if_pos hdot]
    exact (Except.ok.inj h).symm
  · next hdot =>
    rw [if_neg hdot]
    split at h
    · next hdots =>
      rw [if_pos hdots, place_up]
      exact (Except.ok.inj h).symm
    · next hdots =>
      rw [if_neg hdots]
      split at h
      · obtain rfl := Except.ok.inj h
        rw [place, place, List.append_assoc]
      · cases h

theorem place_of_walk {t : Tree} {q : Place} (h : walk t (l.place current) pieces = .ok q) :
    q = (pieces.foldl step l).place current := by
  induction pieces generalizing l with
  | nil => exact (Except.ok.inj h).symm
  | cons first pieces ih =>
    rcases pieces with _ | ⟨second, pieces⟩
    · exact place_step_of_enter h
    · obtain ⟨next, hnext, -, h⟩ := walk_cons_ok_iff.1 h
      rw [place_step_of_enter hnext] at h
      exact ih h

end Lexical

/-- If a path leads anywhere, then to where it leads lexically. -/
theorem place_eq_of_locate {f : Files} {path : String} {q : Place} (h : f.locate path = .ok q) :
    q = (Lexical.ofText path).place f.current := by
  obtain ⟨-, -, -, h⟩ := follow_ok_iff.1 h
  have hstart : f.start (.ofText path) =
      Lexical.place { absolute := isAbsolute path } f.current := by
    rw [start, Lexical.place, List.append_nil, Nat.sub_zero, List.take_length]
    rfl
  rw [hstart] at h
  exact Lexical.place_of_walk h

namespace Lexical

variable {l base : Lexical} {pieces : List String} {piece name : String} {current : Place}

/-! ## A path from a folder -/

/-- A folder, and a path from there on. -/
def along (l r : Lexical) : Lexical :=
  { up^[r.ups] l with names := (up^[r.ups] l).names ++ r.names }

theorem absolute_up (l : Lexical) : l.up.absolute = l.absolute := by
  rw [up]
  split
  · rfl
  · split <;> rfl

/-- Some steps up take back names, and go on above those only if there is anything. -/
theorem iterate_up (l : Lexical) (n : Nat) : up^[n] l =
    { l with
      ups := if l.absolute then l.ups else l.ups + (n - l.names.length)
      names := l.names.take (l.names.length - n) } := by
  induction n with
  | zero => simp
  | succ n ih =>
    rw [Function.iterate_succ_apply', ih, up]
    dsimp only
    by_cases hnames : n < l.names.length
    · have hne : l.names.take (l.names.length - n) ≠ [] := by
        rw [Ne, List.take_eq_nil_iff]
        rintro (h | h)
        · omega
        · simp [h] at hnames
      rw [if_pos hne, dropLast_take_sub,
        show n - l.names.length = n + 1 - l.names.length by omega]
    · have hnil : l.names.length - n = 0 := by omega
      rw [hnil, List.take_zero, if_neg (by simp), show l.names.length - (n + 1) = 0 by omega,
        List.take_zero]
      split
      · rfl
      · rw [show n + 1 - l.names.length = n - l.names.length + 1 by omega, Nat.add_assoc]

theorem along_step {r : Lexical} (hr : r.absolute = false) (l : Lexical) (piece : String) :
    l.along (r.step piece) = (l.along r).step piece := by
  rw [step, step]
  split
  · rfl
  · split
    · by_cases hnames : r.names = []
      · rw [up, if_neg (not_not_intro hnames), if_neg (by simp [hr]), along, along, hnames]
        dsimp only
        rw [List.append_nil, List.append_nil, Function.iterate_succ_apply']
      · rw [up, if_pos hnames, up, along, along]
        dsimp only
        rw [if_pos (List.append_ne_nil_of_right_ne_nil _ hnames),
          List.dropLast_append_of_ne_nil hnames]
    · rw [along, along]
      dsimp only
      rw [List.append_assoc]

/-- Pieces lead from a folder to where the path leads which they make. -/
theorem foldl_step (l : Lexical) (pieces : List String) :
    pieces.foldl step l = l.along (pieces.foldl step {}) := by
  have hrelative (pieces : List String) : (pieces.foldl step {}).absolute = false := by
    induction pieces using List.reverseRecOn with
    | nil => rfl
    | append_singleton pieces piece ih =>
      rw [List.foldl_concat, step]
      split
      · exact ih
      · split
        · rw [absolute_up, ih]
        · exact ih
  induction pieces using List.reverseRecOn with
  | nil => rw [List.foldl_nil, List.foldl_nil, along, List.append_nil]; rfl
  | append_singleton pieces piece ih =>
    rw [List.foldl_concat, List.foldl_concat, ih, along_step (hrelative pieces)]

theorem ofText_join {folder path : String} (hfolder : folder ≠ "") (h : isAbsolute path = false) :
    ofText (join folder path) = (ofText folder).along (ofText path) := by
  rw [ofText, pieces_join hfolder h, List.foldl_append, isAbsolute_join hfolder h, ← ofText,
    foldl_step, ofText, ofText, h]

/-- A name in a folder comes after the names of the folder. -/
theorem ofText_join_of_isName {folder : String} (hname : IsName name) :
    ofText (join folder name) =
      { ofText folder with names := (ofText folder).names ++ [name] } := by
  rw [ofText, pieces_join_of_isName hname, List.foldl_concat, isAbsolute_join_of_isName hname,
    ← ofText, step, if_neg hname.ne_dot, if_neg hname.ne_dots]

/-! ## What is below a folder -/

/-- A path leads strictly below another one: it has the names of the other one, and more. -/
structure Below (l base : Lexical) : Prop where
  absolute : l.absolute = base.absolute
  ups : l.ups = base.ups
  names : base.names <+: l.names
  ne : base.names ≠ l.names

instance (l base : Lexical) : Decidable (l.Below base) :=
  decidable_of_iff (l.absolute = base.absolute ∧ l.ups = base.ups ∧ base.names <+: l.names ∧
    base.names ≠ l.names) ⟨fun ⟨h, h', h'', h'''⟩ => ⟨h, h', h'', h'''⟩,
      fun ⟨h, h', h'', h'''⟩ => ⟨h, h', h'', h'''⟩⟩

theorem Below.exists_place_eq_append (h : l.Below base) (current : Place) :
    ∃ rest ≠ [], l.place current = base.place current ++ rest := by
  obtain ⟨rest, hrest⟩ := h.names
  refine ⟨rest, ?_, ?_⟩
  · rintro rfl
    exact h.ne (by rw [← hrest, List.append_nil])
  · rw [place, place, h.absolute, h.ups, ← hrest, List.append_assoc]

theorem Below.trans {middle : Lexical} (h : l.Below middle) (h' : middle.Below base) :
    l.Below base where
  absolute := h.absolute.trans h'.absolute
  ups := h.ups.trans h'.ups
  names := h'.names.trans h.names
  ne e := h'.ne (h'.names.eq_of_length_le (e ▸ h.names.length_le))

/-- A name in a folder leads below it. -/
theorem below_join_of_isName {folder : String} (hname : IsName name) :
    (ofText (join folder name)).Below (ofText folder) := by
  rw [ofText_join_of_isName hname]
  exact ⟨rfl, rfl, List.prefix_append _ _, by simp⟩

/-- A path from a folder goes up no further than the path of the folder goes, comes back by the
    names which it has taken back, and goes on from there. -/
structure ComesBack (r base : Lexical) : Prop where
  ups_le : base.absolute = true ∨ r.ups ≤ base.names.length
  names : base.names.drop (base.names.length - r.ups) <+: r.names
  ne : base.names.drop (base.names.length - r.ups) ≠ r.names

/-- Names come back after some of them have been taken back. -/
theorem prefix_take_append_iff {names rest : List String} (n : Nat) :
    names <+: names.take n ++ rest ↔ names.drop n <+: rest := by
  have h : names.take n ++ names.drop n <+: names.take n ++ rest ↔ names.drop n <+: rest :=
    List.prefix_append_right_inj _
  rwa [List.take_append_drop] at h

theorem eq_take_append_iff {names rest : List String} (n : Nat) :
    names = names.take n ++ rest ↔ names.drop n = rest := by
  have h : names.take n ++ names.drop n = names.take n ++ rest ↔ names.drop n = rest :=
    List.append_right_inj _
  rwa [List.take_append_drop] at h

/-- A path from a folder leads below it if and only if it comes back. -/
theorem below_along_iff {r : Lexical} : (base.along r).Below base ↔ r.ComesBack base := by
  have hups : (if base.absolute then base.ups else base.ups + (r.ups - base.names.length)) =
      base.ups ↔ base.absolute = true ∨ r.ups ≤ base.names.length := by
    split
    · next h => exact ⟨fun _ => .inl h, fun _ => rfl⟩
    · next h => simp [h, Nat.sub_eq_zero_iff_le]
  rw [along, iterate_up]
  constructor
  · rintro ⟨-, h, h', h''⟩
    exact ⟨hups.1 h, (prefix_take_append_iff _).1 h', fun e => h'' ((eq_take_append_iff _).2 e)⟩
  · rintro ⟨h, h', h''⟩
    exact ⟨rfl, hups.2 h, (prefix_take_append_iff _).2 h', fun e =>
      h'' ((eq_take_append_iff _).1 e)⟩

end Lexical

end CapacityExpansion.Files
