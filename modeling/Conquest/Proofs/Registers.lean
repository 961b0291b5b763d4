import Conquest.Proofs.Play

/-!
# Names and numbers

A scenario speaks of its players, territories and kinds by name, the board by number. Setting up
refuses a name that is given twice in a register and gives every entry its position for a number, so
names and numbers determine each other. Two territories are adjacent on the map just if the scenario
connects their names.

* `Register.nodup_of_check`, `Scenario.find_eq_ok_iff`: a name stands in one place.
* `map_mapM_zipIdx`, `exists_of_numbered`: entries are numbered one after another.
* `Scenario.isAdjacent_atlas_iff`: what the connections make of the map.
-/

namespace Conquest

/-! ## Numbering -/

/-- Entries that are made one after another from a list with positions. -/
theorem map_mapM_zipIdx {ε α β : Type} {f : α × Nat → Except ε β} {name : α → String}
    {entry : β → String × Nat} (hf : ∀ x i y, f (x, i) = .ok y → entry y = (name x, i))
    {xs : List α} {ys : List β} (h : xs.zipIdx.mapM f = .ok ys) :
    ys.map entry = (xs.map name).zipIdx := by
  rw [List.zipIdx_map]
  have hall := mapM_forall₂ h
  clear h
  generalize xs.zipIdx = pairs at hall ⊢
  induction hall with
  | nil => rfl
  | cons hy _ ih =>
    rw [List.map_cons, List.map_cons, ih, hf _ _ _ hy]
    rfl

/-- In a table that is numbered by the positions of some names, a name is found at its position. -/
theorem exists_of_numbered {α : Type} {xs : Array α} {names : List String} {name : α → String}
    {id : α → Nat} (h : xs.toList.map (fun x => (name x, id x)) = names.zipIdx) {i : Nat}
    {n : String} (hn : names[i]? = some n) : ∃ x, xs[i]? = some x ∧ name x = n ∧ id x = i := by
  have hi := congrArg (fun l => l[i]?) h
  rw [List.getElem?_map, List.getElem?_zipIdx, hn, Array.getElem?_toList] at hi
  rcases Option.map_eq_some_iff.1 hi with ⟨x, hx, heq⟩
  rcases Prod.mk.inj heq with ⟨hname, hid⟩
  exact ⟨x, hx, hname, by simpa using hid⟩

theorem size_of_numbered {α : Type} {xs : Array α} {names : List String} {name : α → String}
    {id : α → Nat} (h : xs.toList.map (fun x => (name x, id x)) = names.zipIdx) :
    xs.size = names.length := by
  have hlen := congrArg List.length h
  rwa [List.length_map, List.length_zipIdx, Array.length_toList] at hlen

theorem getElem?_of_numbered {α : Type} [Inhabited α] {xs : Array α} {names : List String}
    {name : α → String} {id : α → Nat}
    (h : xs.toList.map (fun x => (name x, id x)) = names.zipIdx) {i : Nat} (hi : i < xs.size) :
    names[i]? = some (name (xs.getD i default)) := by
  rw [size_of_numbered h] at hi
  rcases exists_of_numbered h (List.getElem?_eq_getElem hi) with ⟨x, hx, hname, -⟩
  rw [Array.getD_eq_getD_getElem?, hx, Option.getD_some, hname]
  exact List.getElem?_eq_getElem hi

/-- Where no name is given twice, to compare positions is to compare the names that stand there. -/
theorem beq_eq_beq_name {α : Type} [Inhabited α] {xs : Array α} {names : List String}
    {name : α → String} {id : α → Nat}
    (h : xs.toList.map (fun x => (name x, id x)) = names.zipIdx) (hnames : names.Nodup) {i j : Nat}
    (hi : i < xs.size) (hj : j < xs.size) :
    (i == j) = (name (xs.getD i default) == name (xs.getD j default)) := by
  rw [Bool.eq_iff_iff, beq_iff_eq, beq_iff_eq]
  constructor
  · rintro rfl
    rfl
  · intro heq
    refine (List.getElem?_inj (size_of_numbered h ▸ hi) hnames).1 ?_
    rw [getElem?_of_numbered h hi, getElem?_of_numbered h hj, heq]

/-! ## Registers -/

/-- A register that passes its check has no name twice. -/
theorem Register.nodup_of_check {r : Register} {seen names : List String}
    (h : r.check seen names = .ok ()) : names.Nodup ∧ ∀ name ∈ names, name ∉ seen := by
  induction names generalizing seen with
  | nil => simp
  | cons name rest ih =>
    unfold Register.check at h
    split at h
    · cases h
    · split at h
      · cases h
      · rename_i hnew
        rcases ih h with ⟨hrest, hseen⟩
        constructor
        · exact List.nodup_cons.2 ⟨fun hmem => hseen name hmem List.mem_cons_self, hrest⟩
        · intro x hx
          rcases List.mem_cons.1 hx with rfl | hx
          · simpa using hnew
          · exact fun hmem => hseen x hx (List.mem_cons_of_mem _ hmem)

namespace Scenario

open Board Table

variable {s : Scenario} {r : Register} {name : String} {i : Nat}

theorem nodup_names {h : Table} (hset : s.setUp = .ok h) (r : Register) : (s.names r).Nodup := by
  unfold setUp at hset
  rcases bind_eq_ok.1 hset with ⟨⟨⟩, hplayers, hset⟩
  rcases bind_eq_ok.1 hset with ⟨⟨⟩, hterritories, hset⟩
  rcases bind_eq_ok.1 hset with ⟨⟨⟩, hkinds, -⟩
  cases r with
  | players => exact (Register.nodup_of_check hplayers).1
  | territories => exact (Register.nodup_of_check hterritories).1
  | kinds => exact (Register.nodup_of_check hkinds).1

/-- A name is found at the one position where it stands. -/
theorem find_eq_ok_iff (hnames : (s.names r).Nodup) :
    s.find r name = .ok i ↔ (s.names r)[i]? = some name := by
  constructor
  · exact getElem?_of_find
  · intro hi
    have hmem : name ∈ s.names r := List.mem_of_getElem? hi
    unfold find Register.find
    cases hidx : (s.names r).idxOf? name with
    | none => exact absurd hmem (List.idxOf?_eq_none_iff.1 hidx)
    | some j =>
      have hj : s.find r name = .ok j := by
        unfold find Register.find
        rw [hidx]
      have heq := (List.getElem?_inj (lt_of_find hj) hnames).1
        ((getElem?_of_find hj).trans hi.symm)
      rw [heq]

/-! ## Entries -/

theorem territories_atlas {m : Atlas} (h : s.atlas = .ok m) :
    m.territories.toList.map (fun t => (t.name, t.id)) = (s.names .territories).zipIdx := by
  unfold Scenario.atlas at h
  rcases bind_eq_ok.1 h with ⟨lands, hlands, hconnect⟩
  have hsame : m.territories = lands.toArray := by
    refine foldlM_keeps (Q := fun m => m.territories = lands.toArray) ?_ rfl hconnect
    intro pair _ m₁ m₂ hterr hstep
    rcases connect_ok hstep with ⟨a, b, -, -, rfl⟩
    exact (m₁.territories_connect a b).trans hterr
  rw [hsame]
  refine map_mapM_zipIdx ?_ hlands
  intro spec id land hland
  unfold Scenario.territory at hland
  rcases bind_eq_ok.1 hland with ⟨owner, -, hpure⟩
  cases hpure
  rfl

theorem map_name_players {players : List Player}
    (h : s.players.zipIdx.mapM (fun (spec, id) => s.player spec id) = .ok players) :
    players.map (fun p => (p.name, p.id)) = (s.names .players).zipIdx := by
  refine map_mapM_zipIdx ?_ h
  intro spec id player hplayer
  unfold Scenario.player at hplayer
  rcases bind_eq_ok.1 hplayer with ⟨capital, -, hpure⟩
  cases hpure
  rfl

theorem map_name_catalogue :
    s.catalogue.toList.map (fun k => (k.name, k.id)) = (s.names .kinds).zipIdx := by
  rw [catalogue, names, List.zipIdx_map, List.map_map]
  rfl

/-! ## Connections -/

/-- Whether a pair of names connects two territories, in either order. -/
def Connects (s : Scenario) (pair : String × String) (t u : TerritoryId) : Prop :=
  (s.find .territories pair.1 = .ok t ∧ s.find .territories pair.2 = .ok u) ∨
    (s.find .territories pair.1 = .ok u ∧ s.find .territories pair.2 = .ok t)

end Scenario

/-- Connecting two places of a map adds that connection, unless it leads from a place to itself. -/
theorem Atlas.isAdjacent_connect_iff {m : Atlas} (hm : m.Linked) {a b : TerritoryId}
    (ha : a < m.size) (hb : b < m.size) (x y : TerritoryId) :
    (m.connect a b).isAdjacent x y = true ↔
      m.isAdjacent x y = true ∨ (x ≠ y ∧ ((x = a ∧ y = b) ∨ (x = b ∧ y = a))) := by
  by_cases hself : a = b
  · -- a place is not connected to itself
    rw [connect, if_pos (.inl hself)]
    constructor
    · exact .inl
    · rintro (hold | ⟨hne, ⟨hx, hy⟩ | ⟨hx, hy⟩⟩)
      · exact hold
      · exact absurd (by rw [hx, hy, hself]) hne
      · exact absurd (by rw [hx, hy, hself]) hne
  · by_cases hold : m.isAdjacent a b = true
    · -- the connection was there before
      rw [connect, if_pos (.inr (.inr (.inr hold)))]
      constructor
      · exact .inl
      · rintro (hxy | ⟨-, ⟨rfl, rfl⟩ | ⟨rfl, rfl⟩⟩)
        · exact hxy
        · exact hold
        · exact hm.adjacent_symm _ _ hold
    · rw [← hm.adjacency_size] at ha hb
      rw [isAdjacent_connect hself ha hb (Bool.eq_false_iff.2 hold)]
      constructor
      · rintro (hxy | hnew)
        · exact .inl hxy
        · refine .inr ⟨?_, hnew⟩
          rintro rfl
          rcases hnew with ⟨hx, hy⟩ | ⟨hx, hy⟩
          · exact hself (hx.symm.trans hy)
          · exact hself (hy.symm.trans hx)
      · rintro (hxy | ⟨-, hnew⟩)
        · exact .inl hxy
        · exact .inr hnew

namespace Scenario

variable {s : Scenario}

/-- Two territories are adjacent if they are not the same and some connection names both. -/
theorem isAdjacent_atlas_iff {m : Atlas} (h : s.atlas = .ok m) (t u : TerritoryId) :
    m.isAdjacent t u = true ↔ t ≠ u ∧ ∃ pair ∈ s.connections, s.Connects pair t u := by
  have hsize := (atlas_mapOf h).size
  unfold Scenario.atlas at h
  rcases bind_eq_ok.1 h with ⟨lands, hlands, hconnect⟩
  have hlen : lands.length = s.territories.length := by
    rw [← (mapM_forall₂ hlands).length_eq, List.length_zipIdx]
  -- after some connections those are adjacent that they name
  have hdrawn : m.Linked ∧ m.size = s.territories.length ∧ ∀ t u, m.isAdjacent t u = true ↔
      t ≠ u ∧ ∃ pair ∈ [] ++ s.connections, s.Connects pair t u := by
    refine foldlM_traces (Q := fun done m => m.Linked ∧ m.size = s.territories.length ∧
      ∀ t u, m.isAdjacent t u = true ↔ t ≠ u ∧ ∃ pair ∈ done, s.Connects pair t u) ?_ ?_ hconnect
    · rintro done pair - m₁ m₂ ⟨hlinked, hsize₁, hiff⟩ hstep
      rcases connect_ok hstep with ⟨a, b, ha, hb, rfl⟩
      have hlt : ∀ {name : String} {t : TerritoryId}, s.find .territories name = .ok t →
          t < m₁.size := by
        intro name t ht
        rw [hsize₁]
        simpa [names] using lt_of_find ht
      refine ⟨hlinked.connect a b, (m₁.size_connect a b).trans hsize₁, ?_⟩
      intro t u
      have hpair : s.Connects pair t u ↔ (t = a ∧ u = b) ∨ (t = b ∧ u = a) := by
        unfold Connects
        rw [ha, hb]
        simp only [Except.ok.injEq]
        constructor
        · rintro (⟨rfl, rfl⟩ | ⟨rfl, rfl⟩)
          · exact .inl ⟨rfl, rfl⟩
          · exact .inr ⟨rfl, rfl⟩
        · rintro (⟨rfl, rfl⟩ | ⟨rfl, rfl⟩)
          · exact .inl ⟨rfl, rfl⟩
          · exact .inr ⟨rfl, rfl⟩
      rw [Atlas.isAdjacent_connect_iff hlinked (hlt ha) (hlt hb), hiff, ← hpair]
      simp only [List.mem_append, List.mem_singleton, or_and_right, exists_or, exists_eq_left]
      exact and_or_left.symm
    · refine ⟨Atlas.linked_ofTerritories _, ?_, ?_⟩
      · simpa [Atlas.ofTerritories, Atlas.size] using hlen
      · intro t u
        rw [← Atlas.mem_neighbors, Atlas.neighbors_ofTerritories]
        simp
  exact hdrawn.2.2 t u

end Scenario

end Conquest
