import Conquest.Identifier
import Conquest.Word

/-!
# Tallies

A tally counts pieces by kind: what is bought, what is pending, what a placement asks for. Its
entries stand in ascending order of kind, each kind at most once, so two tallies with the same
entries are the same tally.
-/

namespace Conquest

/-- Writes the entry of one kind, computed from the entry that stood there. -/
def Tally.update (k : KindId) (f : Option Nat → Nat) :
    List (KindId × Nat) → List (KindId × Nat)
  | [] => [(k, f none)]
  | (j, n) :: rest =>
    if k < j then (k, f none) :: (j, n) :: rest
    else if j < k then (j, n) :: Tally.update k f rest
    else (j, f (some n)) :: rest

theorem Tally.mem_keys_update {k : KindId} {f : Option Nat → Nat} {l : List (KindId × Nat)}
    {e : KindId × Nat} (h : e ∈ Tally.update k f l) : e.1 = k ∨ ∃ e' ∈ l, e'.1 = e.1 := by
  induction l with
  | nil => simp_all [update]
  | cons d rest ih =>
    obtain ⟨j, n⟩ := d
    simp only [update] at h
    split at h
    · rcases List.mem_cons.1 h with rfl | h
      · exact .inl rfl
      · exact .inr ⟨e, h, rfl⟩
    · split at h
      · rcases List.mem_cons.1 h with rfl | h
        · exact .inr ⟨_, List.mem_cons_self, rfl⟩
        · rcases ih h with h | ⟨e', h', he⟩
          · exact .inl h
          · exact .inr ⟨e', List.mem_cons_of_mem _ h', he⟩
      · rcases List.mem_cons.1 h with rfl | h
        · exact .inr ⟨_, List.mem_cons_self, rfl⟩
        · exact .inr ⟨e, List.mem_cons_of_mem _ h, rfl⟩

theorem Tally.pairwise_update (k : KindId) (f : Option Nat → Nat) {l : List (KindId × Nat)}
    (h : l.Pairwise fun a b => a.1 < b.1) :
    (Tally.update k f l).Pairwise fun a b => a.1 < b.1 := by
  induction l with
  | nil => simp [update]
  | cons d rest ih =>
    obtain ⟨j, n⟩ := d
    have hd := List.pairwise_cons.1 h
    simp only [update]
    split
    · rename_i hk
      refine List.pairwise_cons.2 ⟨fun e he => ?_, h⟩
      rcases List.mem_cons.1 he with rfl | he
      · exact hk
      · exact Nat.lt_trans hk (hd.1 e he)
    · split
      · rename_i hk
        refine List.pairwise_cons.2 ⟨fun e he => ?_, ih hd.2⟩
        rcases mem_keys_update he with h | ⟨e', h', he⟩
        · exact h ▸ hk
        · exact he ▸ hd.1 e' h'
      · exact List.pairwise_cons.2 ⟨fun e he => hd.1 e he, hd.2⟩

/-- Counts of pieces by kind, in ascending order of kind. -/
@[ext] structure Tally where
  entries : List (KindId × Nat)
  ascending : entries.Pairwise fun a b => a.1 < b.1
deriving DecidableEq

namespace Tally

/-- The tally without entries. -/
def empty : Tally := ⟨[], .nil⟩

instance : Inhabited Tally := ⟨empty⟩

/-- How many pieces of a kind are counted. -/
def count (c : Tally) (k : KindId) : Nat := (c.entries.lookup k).getD 0

/-- Counts `n` more pieces of a kind. -/
def add (c : Tally) (k : KindId) (n : Nat) : Tally :=
  ⟨update k (fun e => e.getD 0 + n) c.entries, pairwise_update _ _ c.ascending⟩

/-- Counts `n` more pieces of a kind, as far as a word can count them. -/
def addWrapped (c : Tally) (k : KindId) (n : Nat) : Tally :=
  ⟨update k (fun e => wrap (e.getD 0 + n)) c.entries, pairwise_update _ _ c.ascending⟩

/-- Makes the count of a kind `n`. -/
def set (c : Tally) (k : KindId) (n : Nat) : Tally :=
  ⟨update k (fun _ => n) c.entries, pairwise_update _ _ c.ascending⟩

/-- Drops the entry of a kind. -/
def erase (c : Tally) (k : KindId) : Tally :=
  ⟨c.entries.filter (·.1 != k), c.ascending.filter _⟩

/-- Takes `n` pieces of a kind away; an entry that is used up disappears. -/
def spend (c : Tally) (k : KindId) (n : Nat) : Tally :=
  if c.count k ≤ n then c.erase k else c.set k (c.count k - n)

/-- The tally of a list of pieces given by kind. -/
def ofKinds (kinds : List KindId) : Tally := kinds.foldl (fun c k => c.add k 1) empty

/-- The sum of two tallies. -/
def merge (c d : Tally) : Tally := d.entries.foldl (fun c e => c.add e.1 e.2) c

/-- The entries that count something. -/
def nonzero (c : Tally) : List (KindId × Nat) := c.entries.filter fun e => decide (0 < e.2)

/-- Number of pieces counted. -/
def total (c : Tally) : Nat := sumOf (c.entries.map (·.2))

/-- The pieces counted, one by one, in ascending order of kind. -/
def toKinds (c : Tally) : List KindId := c.entries.flatMap fun e => List.replicate e.2 e.1

/-- What the counted pieces cost when a kind costs `price`. -/
def cost (c : Tally) (price : KindId → Nat) : Nat :=
  sumOf (c.entries.map fun e => price e.1 * e.2)

/-- A tally without entries; an entry with count 0 still counts as an entry. -/
def isEmpty (c : Tally) : Bool := c.entries.isEmpty

end Tally

end Conquest
