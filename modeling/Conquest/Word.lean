/-!
# Counts and words

The program counts in words of 32 bits, and a sum or a product that does not fit its word wraps
around. A build that checks its arithmetic stops there instead; where this matters, what overflows
is said beside what is computed.
-/

namespace Conquest

/-- The sum of counts, before it is cut to a word. -/
def sumOf (counts : List Nat) : Nat := counts.foldr (· + ·) 0

/-- What a word of 32 bits keeps of a count. -/
def wrap (n : Nat) : Nat := n % UInt32.size

theorem wrap_eq (n : Nat) : wrap n = n % 4294967296 := rfl

theorem wrap_le (n : Nat) : wrap n ≤ n := Nat.mod_le n _

/-- What fits a word is kept. -/
theorem wrap_of_lt {n : Nat} (h : n < UInt32.size) : wrap n = n := Nat.mod_eq_of_lt h

/-- Adding to a word wraps around no later than adding to the count. -/
theorem wrap_add_le (n m : Nat) : wrap (n + m) ≤ wrap n + m :=
  calc wrap (n + m) = wrap (wrap n + m) := (Nat.mod_add_mod n UInt32.size m).symm
    _ ≤ wrap n + m := wrap_le _

/-- Counts that are the same as words are so after the same is added to them. -/
theorem wrap_add_congr {n m : Nat} (h : wrap n = wrap m) (k : Nat) :
    wrap (n + k) = wrap (m + k) := by
  unfold wrap at h ⊢
  rw [Nat.add_mod n, Nat.add_mod m, h]

/-- A list of counts, each of which fits a word. This is a check that is run, so that for counts
written out it holds by computation alone. -/
def AreWords (counts : List Nat) : Prop := (counts.all fun n => n < UInt32.size) = true

instance (counts : List Nat) : Decidable (AreWords counts) :=
  inferInstanceAs (Decidable (_ = true))

theorem AreWords.lt_of_mem {counts : List Nat} (h : AreWords counts) {n : Nat}
    (hn : n ∈ counts) : n < UInt32.size := of_decide_eq_true (List.all_eq_true.1 h n hn)

theorem areWords_nil : AreWords [] := rfl

theorem areWords_cons {n : Nat} {rest : List Nat} :
    AreWords (n :: rest) ↔ n < UInt32.size ∧ AreWords rest := by
  simp [AreWords]

end Conquest
