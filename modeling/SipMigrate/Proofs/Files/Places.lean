import Mathlib
import SipMigrate.Files.Shortened

/-! Where paths lead. A path that is followed from directory to directory and one that is
shortened first lead to the same place, if both lead anywhere. What is written under a
new name stands in its directory beside all that was there, and no path leads elsewhere
for it. -/

namespace SipMigrate.Files.Tree

variable {α : Type} {t : Tree α} {p q here : Place} {n : Node α}

theorem shorten_eq_of_walk {l : List String} (hw : t.walk here l = .ok p)
    (hs : t.shorten here l = .ok q) : q = p := by
  induction l generalizing here with
  | nil =>
    rw [shorten] at hs
    split at hs
    · cases hs
    · exact (Except.ok.inj hs).symm.trans (Except.ok.inj hw)
  | cons c rest ih =>
    rw [walk] at hw
    rw [shorten] at hs
    -- only from a directory does the path lead on
    split at hw
    · cases hw
    · cases hw
    · by_cases hdot : c = "" ∨ c = "."
      · rw [if_pos (by simpa using hdot)] at hw hs
        exact ih hw hs
      rw [if_neg (by simpa using hdot)] at hw hs
      by_cases hup : c = ".."
      · rw [if_pos hup] at hw hs
        exact ih hw hs
      rw [if_neg hup] at hw hs
      split at hw
      · cases hw
      · split at hs
        · cases hs
        · split at hs
          · exact ih hw hs
          · cases hs
          · exact ih hw hs

theorem shortened_eq_of_place {path : String} (hp : t.place path = .ok p)
    (hs : t.shortened path = .ok q) : q = p := by
  unfold place at hp
  split at hp
  · cases hp
  · split at hp
    · cases hp
    · split at hp
      · cases hp
      · exact shorten_eq_of_walk hp hs

/-- What is at a path stands at the place that the path leads to. -/
theorem exists_node_of_hasPath {path : String} (h : t.hasPath path = true) :
    ∃ p n, t.place path = .ok p ∧ t.node? p = some n := by
  unfold hasPath find at h
  cases hp : t.place path with
  | error e =>
    rw [hp] at h
    cases h
  | ok p =>
    cases hn : t.node? p with
    | some n => exact ⟨p, n, rfl, hn⟩
    | none =>
      simp only [hp, bind, Except.bind, hn] at h
      cases h

theorem beside_ne {suffix : String} (hp : p ≠ []) (hs : suffix ≠ "") : beside p suffix ≠ p := by
  obtain ⟨front, name, rfl⟩ := List.eq_nil_or_concat p |>.resolve_left hp
  intro h
  have hname : name ++ suffix = name := by simpa [beside] using h
  exact hs (String.append_eq_left_iff.mp hname)

/-! ### Placing nodes -/

theorem node?_set (h : ¬(p = [] ∨ p = top)) : (t.set p n).node? p = some n := by
  have hnone : (t.nodes.filter fun m => m.1 ≠ p).find? (fun m => decide (m.1 = p)) = none := by
    simp [List.find?_eq_none]
  rw [node?, if_neg (by simpa using h), set, List.find?_append, hnone]
  simp

theorem node?_set_self (h : t.node? p = none) : (t.set p n).node? p = some n := by
  refine node?_set fun hp => ?_
  rw [node?, if_pos (by simpa using hp)] at h
  cases h

theorem node?_set_directory : (t.set p .directory).node? p = some .directory := by
  by_cases hp : p = [] ∨ p = top
  · rw [node?, if_pos (by simpa using hp)]
  · exact node?_set hp

theorem node?_set_of_ne (h : q ≠ p) : (t.set p n).node? q = t.node? q := by
  unfold node?
  split
  · rfl
  · have hkept : (t.nodes.filter fun m => m.1 ≠ p).find? (fun m => decide (m.1 = q)) =
        t.nodes.find? fun m => m.1 = q := by
      rw [List.find?_filter]
      congr 1
      funext m
      by_cases hm : m.1 = q <;> simp [hm, h]
    rw [set, List.find?_append, hkept]
    simp [Ne.symm h]

theorem set_ne (h : t.node? p = none) : t.set p n ≠ t := by
  intro heq
  have := node?_set_self (n := n) h
  rw [heq, h] at this
  cases this

/-! ### Leading directories -/

theorem makeDirectories_of_stands (h : ∀ k, (t.node? (p.take k)).isSome) :
    t.makeDirectories p = t :=
  List.foldl_fixed' (fun k => if_pos (h k)) _

theorem node?_set_of_some {m : Node α} (h : t.node? p = none) (hq : t.node? q = some m) :
    (t.set p n).node? q = some m := by
  rw [node?_set_of_ne]
  · exact hq
  · rintro rfl
    rw [h] at hq
    cases hq

theorem isSome_node?_set (h : t.node? p = none) (hq : (t.node? q).isSome) :
    ((t.set p n).node? q).isSome := by
  obtain ⟨m, hm⟩ := Option.isSome_iff_exists.mp hq
  rw [node?_set_of_some h hm]
  rfl

/-- Directories are made at the beginnings of a place, where nothing stands. -/
theorem makeDirectories_induction {motive : Tree α → Nat → Prop} (t : Tree α) (p : Place)
    (start : motive t 0)
    (stands : ∀ t k, motive t k → (t.node? (p.take k)).isSome → motive t (k + 1))
    (made : ∀ t k, motive t k → t.node? (p.take k) = none →
      motive (t.set (p.take k) .directory) (k + 1)) :
    motive (t.makeDirectories p) (p.length + 1) := by
  unfold makeDirectories
  induction p.length + 1 with
  | zero => exact start
  | succ k ih =>
    rw [List.range_succ, List.foldl_append]
    show motive (if _ then _ else _) (k + 1)
    split
    · exact stands _ k ih ‹_›
    · exact made _ k ih (Option.not_isSome_iff_eq_none.mp ‹_›)

theorem makeDirectories_stands (t : Tree α) (p : Place) (k : Nat) :
    ((t.makeDirectories p).node? (p.take k)).isSome := by
  have h : ∀ j < p.length + 1, ((t.makeDirectories p).node? (p.take j)).isSome := by
    refine makeDirectories_induction (motive := fun u k => ∀ j < k, (u.node? (p.take j)).isSome)
      t p (by simp) ?_ ?_
    · intro u k ih hk j hj
      rcases Nat.lt_succ_iff_lt_or_eq.mp hj with hj | rfl
      · exact ih j hj
      · exact hk
    · intro u k ih hk j hj
      rcases Nat.lt_succ_iff_lt_or_eq.mp hj with hj | rfl
      · exact isSome_node?_set hk (ih j hj)
      · rw [node?_set_directory]
        rfl
  rcases Nat.lt_or_ge k (p.length + 1) with hk | hk
  · exact h k hk
  · rw [List.take_of_length_le (by omega)]
    simpa using h p.length (Nat.lt_succ_self _)

theorem put_stands (t : Tree α) (p : Place) (k : Nat) :
    ((t.put p .directory).node? (p.take k)).isSome := by
  unfold put
  by_cases hk : p.take k = p
  · rw [hk, node?_set_directory]
    rfl
  · have hlt : k < p.length := by
      by_contra hge
      exact hk (List.take_of_length_le (by omega))
    have hbefore : p.take k = p.dropLast.take k := by
      rw [List.dropLast_eq_take, List.take_take, Nat.min_eq_left (by omega)]
    rw [node?_set_of_ne hk, hbefore]
    exact makeDirectories_stands t _ k

theorem length_le_of_mem_makeDirectories {m : Place × Node α}
    (h : m ∈ ((empty : Tree α).makeDirectories p).nodes) : m.1.length ≤ p.length := by
  refine makeDirectories_induction
    (motive := fun u _ => ∀ m ∈ u.nodes, m.1.length ≤ p.length) empty p (by simp [empty])
    (fun u k ih _ => ih) ?_ m h
  intro u k ih _ m hm
  rcases List.mem_append.mp hm with hm | hm
  · exact ih m (List.mem_filter.mp hm).1
  · obtain rfl := List.mem_singleton.mp hm
    simp

/-- A path leads where it led, where all directories still stand. -/
theorem walk_of_directories {u : Tree α}
    (h : ∀ r, t.node? r = some .directory → u.node? r = some .directory) {l : List String}
    (hw : t.walk here l = .ok p) : u.walk here l = .ok p := by
  induction l generalizing here with
  | nil => exact hw
  | cons c rest ih =>
    rw [walk] at hw
    split at hw
    · cases hw
    · cases hw
    · rename_i hhere
      rw [walk, h here hhere]
      dsimp only
      split at hw
      · rw [if_pos ‹_›]
        exact ih hw
      rw [if_neg ‹_›]
      split at hw
      · rw [if_pos ‹_›]
        exact ih hw
      rw [if_neg ‹_›]
      split at hw
      · cases hw
      rw [if_neg ‹_›]
      exact ih hw

theorem place_of_directories {u : Tree α}
    (h : ∀ r, t.node? r = some .directory → u.node? r = some .directory) {path : String}
    (hp : t.place path = .ok p) : u.place path = .ok p := by
  unfold place at hp ⊢
  split at hp
  · cases hp
  rw [if_neg ‹_›]
  split at hp
  · cases hp
  rw [if_neg ‹_›]
  split at hp
  · cases hp
  rw [if_neg ‹_›]
  exact walk_of_directories h hp

/-! ### What stands in a directory -/

/-- The entry that a node makes in a directory, if it stands directly in it. -/
def entryIn (p : Place) (m : Place × Node α) : Option Entry :=
  match m.1.getLast? with
  | some name => if m.1.dropLast = p then some ⟨name, m.2.isFile⟩ else none
  | none => none

theorem entryIn_append (p : Place) (name : String) (n : Node α) :
    entryIn p (p ++ [name], n) = some ⟨name, n.isFile⟩ := by
  simp [entryIn]

theorem entryIn_of_length {m : Place × Node α} (h : m.1.length ≤ p.length) :
    entryIn p m = none := by
  unfold entryIn
  split
  · rename_i name hlast
    refine if_neg ?_
    rintro rfl
    have : m.1 ≠ [] := by
      rintro hm
      rw [hm] at hlast
      cases hlast
    have := List.length_pos_iff.mpr this
    rw [List.length_dropLast] at h
    omega
  · rfl

/-- The entries of a directory, in the order in which they were written. -/
def written (t : Tree α) (p : Place) : List Entry := t.nodes.filterMap (entryIn p)

theorem children_perm (t : Tree α) (p : Place) : (t.children p).Perm (t.written p) :=
  List.mergeSort_perm _ _

/-- In a tree that was empty nothing stands in a place that has just been written. -/
theorem written_put_empty : ((empty : Tree α).put p n).written p = [] := by
  refine List.filterMap_eq_nil_iff.mpr fun m hm => entryIn_of_length ?_
  rcases List.mem_append.mp hm with hm | hm
  · refine (length_le_of_mem_makeDirectories (List.mem_filter.mp hm).1).trans ?_
    simp
  · obtain rfl := List.mem_singleton.mp hm
    exact Nat.le_refl _

section NewName

variable {name : String} (h : ∀ e ∈ t.written p, e.name ≠ name)

include h

theorem ne_of_not_written : ∀ m ∈ t.nodes, m.1 ≠ p ++ [name] := by
  rintro ⟨q, k⟩ hm rfl
  exact h _ (List.mem_filterMap.mpr ⟨_, hm, entryIn_append p name k⟩) rfl

/-- A new name comes after the names that are there. -/
theorem written_set (n : Node α) :
    (t.set (p ++ [name]) n).written p = t.written p ++ [⟨name, n.isFile⟩] := by
  have hkept : t.nodes.filter (fun m => m.1 ≠ p ++ [name]) = t.nodes :=
    List.filter_eq_self.mpr fun m hm => decide_eq_true (ne_of_not_written h m hm)
  rw [written, set, hkept, List.filterMap_append, written]
  simp [entryIn_append]

theorem node?_of_not_written (hname : name ≠ "/") : t.node? (p ++ [name]) = none := by
  have htop : ¬(p ++ [name] = [] ∨ p ++ [name] = top) := by
    rintro (heq | heq)
    · exact List.append_ne_nil_of_right_ne_nil p (List.cons_ne_nil name []) heq
    · have hnames : p ++ [name] = [] ++ ["/"] := heq
      exact hname (List.singleton_inj.mp (List.append_inj_right' hnames rfl))
  have hnone : t.nodes.find? (fun m => m.1 = p ++ [name]) = none :=
    List.find?_eq_none.mpr fun m hm => by simpa using ne_of_not_written h m hm
  rw [node?, if_neg (by simpa using htop), hnone]
  rfl

end NewName

end SipMigrate.Files.Tree
