import Mathlib.Data.List.Chain
import Mathlib.Data.List.Count
import Mathlib.Data.List.Sort

/-!
# Pages of a growing table

A table is listed newest first, a page at a time, by offset and limit. Between two pages rows may
come in anywhere in the order, but none goes. So the number of rows before a given one does not
decrease, and a walk through the pages, which leaves only rows behind that are on a page, misses
none of the rows that were there when it began.
-/

namespace Paging
variable {α β : Type} [LinearOrder β] (key : α → β)

def newestFirst (rows : List α) : List α := rows.insertionSort fun a b => key b ≤ key a

def page (rows : List α) (limit offset : ℕ) : List α :=
  ((newestFirst key rows).drop offset).take limit

def newer (k : β) (rows : List α) : ℕ := rows.countP fun a => k < key a

/-- The pages that a reader gets who stops at the first one that is not full. -/
def walk (limit : ℕ) : ℕ → List (List α) → Option (List α)
  | _, [] => none
  | offset, rows :: later =>
    let rows' := page key rows limit offset
    if rows'.length < limit then some rows'
    else (walk limit (offset + limit) later).map (rows' ++ ·)

/-- No key goes. -/
def Kept (rows rows' : List α) : Prop := rows.map key ⊆ rows'.map key ∧ (rows'.map key).Nodup

variable {key} {rows rows' : List α} {k : β} {limit offset : ℕ}

theorem pairwise_newestFirst (key : α → β) (rows : List α) :
    (newestFirst key rows).Pairwise fun a b => key b ≤ key a := by
  have htotal : Std.Total fun a b : α => key b ≤ key a := ⟨fun a b => le_total (key b) (key a)⟩
  have htrans : IsTrans α fun a b => key b ≤ key a := ⟨fun a b c hab hbc => hbc.trans hab⟩
  exact List.pairwise_insertionSort _ rows

theorem mem_newestFirst {a : α} : a ∈ newestFirst key rows ↔ a ∈ rows :=
  List.mem_insertionSort _

theorem newer_newestFirst (k : β) (rows : List α) :
    newer key k (newestFirst key rows) = newer key k rows :=
  (List.perm_insertionSort _ rows).countP_eq _

theorem newer_append (k : β) (rows rows' : List α) :
    newer key k (rows ++ rows') = newer key k rows + newer key k rows' := List.countP_append

theorem newer_le_of_kept (hkept : Kept key rows rows') (hnodup : (rows.map key).Nodup) (k : β) :
    newer key k rows ≤ newer key k rows' := by
  have hmap : ∀ l : List α, newer key k l = (l.map key).countP (k < ·) := by
    intro l
    rw [List.countP_map]
    rfl
  rw [hmap, hmap]
  exact (List.subperm_of_subset hnodup hkept.1).countP_le _

/-! ### One page -/

theorem newer_lt_of_mem_take {l : List α} (hl : l.Pairwise fun a b => key b ≤ key a) {a : α}
    (ha : a ∈ l.take offset) : newer key (key a) l < offset := by
  rw [← List.take_append_drop offset l] at hl
  obtain ⟨-, -, hcross⟩ := List.pairwise_append.1 hl
  have hafter : newer key (key a) (l.drop offset) = 0 := by
    refine List.countP_eq_zero.2 fun b hb => ?_
    simpa using hcross a ha b hb
  have hbefore : newer key (key a) (l.take offset) < (l.take offset).length := by
    refine List.countP_lt_length_iff.2 ⟨a, ha, ?_⟩
    simp
  calc newer key (key a) l
      = newer key (key a) (l.take offset) + newer key (key a) (l.drop offset) := by
        rw [← newer_append, List.take_append_drop]
    _ = newer key (key a) (l.take offset) := by rw [hafter, Nat.add_zero]
    _ < (l.take offset).length := hbefore
    _ ≤ offset := List.length_take_le _ _

theorem mem_take_of_newer {l : List α} (hl : l.Pairwise fun a b => key b ≤ key a) {a : α}
    (ha : a ∈ l) (hnewer : newer key (key a) l < offset) : key a ∈ (l.take offset).map key := by
  by_contra hno
  rw [← List.take_append_drop offset l] at hl ha
  obtain ⟨-, -, hcross⟩ := List.pairwise_append.1 hl
  have hdrop : a ∈ l.drop offset := by
    rcases List.mem_append.1 ha with htake | hdrop
    · exact absurd (List.mem_map_of_mem htake) hno
    · exact hdrop
  have hall : newer key (key a) (l.take offset) = (l.take offset).length := by
    refine List.countP_eq_length.2 fun b hb => decide_eq_true ?_
    refine lt_of_le_of_ne (hcross b hb a hdrop) fun heq => hno ?_
    rw [heq]
    exact List.mem_map_of_mem hb
  have hlength : (l.take offset).length = offset := by
    have hpos := List.length_pos_of_mem hdrop
    rw [List.length_drop] at hpos
    rw [List.length_take]
    omega
  have hle : newer key (key a) (l.take offset) ≤ newer key (key a) l :=
    (List.take_sublist offset l).countP_le
  omega

theorem mem_page {a : α} (ha : a ∈ rows) (hoffset : offset ≤ newer key (key a) rows)
    (hlimit : newer key (key a) rows < offset + limit) :
    key a ∈ (page key rows limit offset).map key := by
  have hl := pairwise_newestFirst key rows
  rw [← newer_newestFirst] at hoffset hlimit
  obtain ⟨b, hb, hkey⟩ := List.mem_map.1 (mem_take_of_newer hl (mem_newestFirst.2 ha) hlimit)
  rw [List.take_add] at hb
  rcases List.mem_append.1 hb with hbefore | hpage
  · have hlt := newer_lt_of_mem_take hl hbefore
    rw [hkey] at hlt
    omega
  · exact List.mem_map.2 ⟨b, hpage, hkey⟩

theorem newer_lt_of_short {a : α} (ha : a ∈ rows)
    (hshort : (page key rows limit offset).length < limit) :
    newer key (key a) rows < offset + limit := by
  have hlt : newer key (key a) rows < rows.length :=
    List.countP_lt_length_iff.2 ⟨a, ha, by simp⟩
  have hlength : (newestFirst key rows).length = rows.length := List.length_insertionSort _ _
  rw [page, List.length_take, List.length_drop, hlength] at hshort
  omega

theorem mem_of_page {a : α} (ha : a ∈ page key rows limit offset) : a ∈ rows :=
  mem_newestFirst.1 (List.mem_of_mem_drop (List.mem_of_mem_take ha))

/-! ### All pages -/

theorem mem_of_walk {tables : List (List α)} {out : List α}
    (hwalk : walk key limit offset tables = some out) {a : α} (ha : a ∈ out) :
    ∃ rows ∈ tables, a ∈ rows := by
  induction tables generalizing offset out with
  | nil => cases hwalk
  | cons rows later ih =>
    unfold walk at hwalk
    dsimp only at hwalk
    split_ifs at hwalk
    · obtain rfl := Option.some.inj hwalk
      exact ⟨rows, List.mem_cons_self, mem_of_page ha⟩
    · obtain ⟨rest, hrest, rfl⟩ := Option.map_eq_some_iff.1 hwalk
      rcases List.mem_append.1 ha with hpage | hlater
      · exact ⟨rows, List.mem_cons_self, mem_of_page hpage⟩
      · obtain ⟨rows', hrows', hmem⟩ := ih hrest hlater
        exact ⟨rows', List.mem_cons_of_mem _ hrows', hmem⟩

/-- A walk passes over no row that is still before it. -/
theorem mem_walk {later : List (List α)} {out : List α}
    (hchain : (rows :: later).IsChain (Kept key)) (hnodup : (rows.map key).Nodup)
    (hwalk : walk key limit offset (rows :: later) = some out) {a : α} (ha : a ∈ rows)
    (hoffset : offset ≤ newer key (key a) rows) : key a ∈ out.map key := by
  induction later generalizing rows offset out a with
  | nil =>
    unfold walk at hwalk
    dsimp only at hwalk
    split_ifs at hwalk with hshort
    · obtain rfl := Option.some.inj hwalk
      exact mem_page ha hoffset (newer_lt_of_short ha hshort)
    · cases hwalk
  | cons rows' later ih =>
    obtain ⟨hkept, hchain⟩ := List.isChain_cons_cons.1 hchain
    unfold walk at hwalk
    dsimp only at hwalk
    split_ifs at hwalk with hshort
    · obtain rfl := Option.some.inj hwalk
      exact mem_page ha hoffset (newer_lt_of_short ha hshort)
    · obtain ⟨rest, hrest, rfl⟩ := Option.map_eq_some_iff.1 hwalk
      rw [List.map_append]
      by_cases hhere : newer key (key a) rows < offset + limit
      · exact List.mem_append_left _ (mem_page ha hoffset hhere)
      · obtain ⟨a', ha', hkey⟩ := List.mem_map.1 (hkept.1 (List.mem_map_of_mem ha))
        have hle := newer_le_of_kept hkept hnodup (key a)
        have hmem := ih hchain hkept.2 hrest ha' (by rw [hkey]; omega)
        rw [hkey] at hmem
        exact List.mem_append_right _ hmem

/-- A walk from the beginning misses none of the rows that were there. -/
theorem walk_complete {later : List (List α)} {out : List α}
    (hchain : (rows :: later).IsChain (Kept key)) (hnodup : (rows.map key).Nodup)
    (hwalk : walk key limit 0 (rows :: later) = some out) : rows.map key ⊆ out.map key := by
  intro k hk
  obtain ⟨a, ha, rfl⟩ := List.mem_map.1 hk
  exact mem_walk hchain hnodup hwalk ha (Nat.zero_le _)

end Paging
