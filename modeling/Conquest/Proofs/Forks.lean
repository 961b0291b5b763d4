import Conquest.Ledger.Shelf
import Conquest.Proofs.Checks
import Conquest.Proofs.Draft

/-!
# Forks lose nothing

A request writes all of its entries or none, so a ledger only ever grows at its end. What is done on
a fork is therefore what would have been done on the ledger itself, and absorbing the fork at once
makes up the difference.

* `Ledger.Grows`, `Ledger.grows_run`: what requests add to a ledger.
* `Ledger.foldl_listed`, `Ledger.absorb_eq_ok_iff`: what absorbing a fork adds.
* `Ledger.absorb_grown`: a ledger that takes back its own fork grows by what the fork has gained.
-/

namespace Conquest.Ledger

variable {l m f : Ledger} {r : Request} {u : PieceId} {added : List (PieceId × Commitment)}

/-! ## Requests -/

/-- The entries that a request asks for. -/
def Request.entries : Request → List (PieceId × Commitment)
  | .commit u => [(u, .moved)]
  | .commitAll us => us.map (·, .moved)
  | .embark _ cargo => cargo.map (·, .moved)
  | .hold u => [(u, .held)]

/-- What a request puts aboard, by transport. -/
def Request.cargo : Request → List (PieceId × PieceId)
  | .embark transport cargo => cargo.map (transport, ·)
  | _ => []

/-- The ledger with more entries and a longer manifest. -/
def extend (l : Ledger) (added : List (PieceId × Commitment))
    (shipped : List (PieceId × PieceId)) : Ledger :=
  { l with entries := l.entries ++ added, manifest := l.manifest ++ shipped }

/-- Entries that can be added together: no piece is taken yet or listed twice. -/
structure Free (l : Ledger) (added : List (PieceId × Commitment)) : Prop where
  nodup : (added.map (·.1)).Nodup
  free : ∀ u ∈ added.map (·.1), u ∉ l.pieces

/-- A batch is recorded exactly when its pieces are free and distinct. -/
theorem record_eq_ok_iff : l.record added = .ok m ↔ l.Free added ∧ m = l.withEntries added := by
  unfold record
  cases hc : l.conflict? [] (added.map (·.1)) with
  | none =>
    rcases conflict?_eq_none.1 hc with ⟨hnodup, hfree⟩
    have hall : l.Free added := ⟨hnodup, fun u hu => (hfree u hu).1⟩
    simp only [Except.ok.injEq, hall, true_and]
    exact eq_comm
  | some u =>
    -- a piece in conflict is not free
    simp only [reduceCtorEq, false_iff, not_and]
    rintro ⟨hnodup, hfree⟩
    rw [conflict?_eq_none.2 ⟨hnodup, fun u hu => ⟨hfree u hu, List.not_mem_nil⟩⟩] at hc
    cases hc

theorem toOption_eq_some_iff {ε α : Type} {x : Except ε α} {a : α} :
    x.toOption = some a ↔ x = .ok a := by
  cases x with
  | ok b => simp [Except.toOption]
  | error e => simp [Except.toOption]

/-- A request is granted if all that it asks for is free, and then all of it is written. -/
theorem answer?_eq_some_iff :
    l.answer? r = some m ↔ l.Free r.entries ∧ m = l.extend r.entries r.cargo := by
  cases r with
  | embark transport cargo =>
    -- the manifest is written after the entries and cannot fail
    unfold answer? embark commitAll
    rw [toOption_eq_some_iff, bind_eq_ok]
    simp only [record_eq_ok_iff, pure_eq_ok]
    constructor
    · rintro ⟨taken, ⟨hfree, rfl⟩, rfl⟩
      exact ⟨hfree, rfl⟩
    · rintro ⟨hfree, rfl⟩
      exact ⟨_, ⟨hfree, rfl⟩, rfl⟩
  | commit u =>
    unfold answer? commit commitAll
    rw [toOption_eq_some_iff, record_eq_ok_iff]
    simp [Request.entries, Request.cargo, extend, withEntries]
  | commitAll us =>
    unfold answer? commitAll
    rw [toOption_eq_some_iff, record_eq_ok_iff]
    simp [Request.entries, Request.cargo, extend, withEntries]
  | hold u =>
    unfold answer? hold?
    rw [toOption_eq_some_iff, record_eq_ok_iff]
    simp [Request.entries, Request.cargo, extend, withEntries]

/-- A request is granted in full or leaves the ledger as it was. -/
theorem obey_cases (l : Ledger) (r : Request) :
    l.obey r = l ∨ l.Free r.entries ∧ l.obey r = l.extend r.entries r.cargo := by
  unfold obey
  cases hr : l.answer? r with
  | none => exact .inl rfl
  | some m => exact .inr (answer?_eq_some_iff.1 hr)

theorem run_concat (l : Ledger) (requests : List Request) (r : Request) :
    l.run (requests ++ [r]) = (l.run requests).obey r := by
  simp [run]

/-- Where a ledger branched off is nothing to its requests. -/
theorem obey_inherited (l : Ledger) (n : Nat) (r : Request) :
    ({ l with inherited := n } : Ledger).obey r = { l.obey r with inherited := n } := by
  unfold obey
  cases hr : l.answer? r with
  | some m =>
    rcases answer?_eq_some_iff.1 hr with ⟨hfree, rfl⟩
    have hfork : ({ l with inherited := n } : Ledger).answer? r =
        some (({ l with inherited := n } : Ledger).extend r.entries r.cargo) :=
      answer?_eq_some_iff.2 ⟨⟨hfree.nodup, hfree.free⟩, rfl⟩
    rw [hfork]
    rfl
  | none =>
    cases hfork : ({ l with inherited := n } : Ledger).answer? r with
    | none => rfl
    | some m =>
      -- what the fork grants the ledger would have granted
      rcases answer?_eq_some_iff.1 hfork with ⟨hfree, -⟩
      have hgranted : l.answer? r = some (l.extend r.entries r.cargo) :=
        answer?_eq_some_iff.2 ⟨⟨hfree.nodup, hfree.free⟩, rfl⟩
      rw [hr] at hgranted
      cases hgranted

/-- Requests to a fork do what they would have done to the ledger. -/
theorem run_fork (l : Ledger) (requests : List Request) :
    l.fork.run requests = { l.run requests with inherited := l.length } := by
  induction requests using List.reverseRecOn with
  | nil => rfl
  | append_singleton rest r ih => rw [run_concat, run_concat, ih, obey_inherited]

/-! ## Growth -/

/-- What a ledger writes at its end: pieces that were free, each once, and of these the cargo. -/
structure Grows (l m : Ledger) (added : List (PieceId × Commitment))
    (shipped : List (PieceId × PieceId)) : Prop where
  eq : m = l.extend added shipped
  free : l.Free added
  moved : ∀ e ∈ shipped, (e.2, Commitment.moved) ∈ added
  once : (shipped.map (·.2)).Nodup

theorem Grows.refl (l : Ledger) : Grows l l [] [] := by
  refine ⟨?_, ⟨List.nodup_nil, by simp⟩, by simp, List.nodup_nil⟩
  simp [extend]

/-- Two batches that are free one after the other are free together. -/
theorem Free.append {added' : List (PieceId × Commitment)} {shipped : List (PieceId × PieceId)}
    (h : l.Free added) (h' : (l.extend added shipped).Free added') : l.Free (added ++ added') := by
  have hpieces : (l.extend added shipped).pieces = l.pieces ++ added.map (·.1) := by
    simp [extend, pieces]
  constructor
  · rw [List.map_append, List.nodup_append]
    refine ⟨h.nodup, h'.nodup, ?_⟩
    intro u hu w hw huw
    subst huw
    exact h'.free u hw (hpieces ▸ List.mem_append_right _ hu)
  · intro u hu hin
    rw [List.map_append, List.mem_append] at hu
    rcases hu with hu | hu
    · exact h.free u hu hin
    · exact h'.free u hu (hpieces ▸ List.mem_append_left _ hin)

/-- Growth after growth is growth by both. -/
theorem Grows.trans {k : Ledger} {added' : List (PieceId × Commitment)}
    {shipped shipped' : List (PieceId × PieceId)} (h : Grows l m added shipped)
    (h' : Grows m k added' shipped') : Grows l k (added ++ added') (shipped ++ shipped') := by
  have hfree := h.eq ▸ h'.free
  refine ⟨?_, h.free.append hfree, ?_, ?_⟩
  · rw [h'.eq, h.eq]
    simp [extend]
  · intro e he
    rcases List.mem_append.1 he with he | he
    · exact List.mem_append_left _ (h.moved e he)
    · exact List.mem_append_right _ (h'.moved e he)
  · rw [List.map_append, List.nodup_append]
    refine ⟨h.once, h'.once, ?_⟩
    -- what is shipped later is taken later, and nothing is taken twice
    intro u hu w hw huw
    subst huw
    rcases List.mem_map.1 hu with ⟨e, he, rfl⟩
    rcases List.mem_map.1 hw with ⟨e', he', heq⟩
    have hlater := List.mem_map_of_mem (f := (·.1)) (h'.moved e' he')
    have hearlier := List.mem_map_of_mem (f := (·.1)) (h.moved e he)
    refine hfree.free e.2 (heq ▸ hlater) ?_
    simp only [extend, pieces, List.map_append]
    exact List.mem_append_right _ hearlier

/-- What a request embarks it also commits as moved. -/
theorem Request.cargo_moved {e : PieceId × PieceId} (he : e ∈ r.cargo) :
    (e.2, Commitment.moved) ∈ r.entries := by
  cases r with
  | embark transport cargo =>
    rcases List.mem_map.1 he with ⟨u, hu, rfl⟩
    exact List.mem_map.2 ⟨u, hu, rfl⟩
  | commit u => cases he
  | commitAll us => cases he
  | hold u => cases he

theorem Request.cargo_sublist (r : Request) :
    (r.cargo.map (·.2)).Sublist (r.entries.map (·.1)) := by
  cases r with
  | embark transport cargo => simp [Request.cargo, Request.entries, Function.comp_def]
  | commit u => exact List.nil_sublist _
  | commitAll us => exact List.nil_sublist _
  | hold u => exact List.nil_sublist _

theorem grows_obey (l : Ledger) (r : Request) :
    ∃ added shipped, Grows l (l.obey r) added shipped := by
  rcases obey_cases l r with heq | ⟨hfree, heq⟩
  · exact ⟨[], [], by rw [heq]; exact .refl l⟩
  · exact ⟨r.entries, r.cargo, heq, hfree, fun e he => Request.cargo_moved he,
      hfree.nodup.sublist r.cargo_sublist⟩

/-- Requests only ever add to a ledger. -/
theorem grows_run (l : Ledger) (requests : List Request) :
    ∃ added shipped, Grows l (l.run requests) added shipped := by
  induction requests using List.reverseRecOn with
  | nil => exact ⟨[], [], .refl l⟩
  | append_singleton rest r ih =>
    rcases ih with ⟨added, shipped, hrest⟩
    rcases grows_obey (l.run rest) r with ⟨added', shipped', hlast⟩
    rw [run_concat]
    exact ⟨_, _, hrest.trans hlast⟩

/-! ## Absorbing -/

/-- What a fork has taken since it branched off. -/
def gained (f : Ledger) : List (PieceId × Commitment) := f.entries.drop f.inherited

/-- Listing what is not listed yet, one after another, lists all that was not listed. -/
theorem foldl_listed {α : Type} [BEq α] [LawfulBEq α] {base news : List α}
    (hnodup : (news.filter fun e => !base.contains e).Nodup) :
    news.foldl (fun listed e => if listed.contains e then listed else listed ++ [e]) base =
      base ++ news.filter fun e => !base.contains e := by
  induction news generalizing base with
  | nil => simp
  | cons e rest ih =>
    rw [List.foldl_cons]
    by_cases he : base.contains e = true
    · rw [if_pos he]
      have hfilter : (e :: rest).filter (fun e => !base.contains e) =
          rest.filter fun e => !base.contains e := by
        rw [List.filter_cons, he]
        rfl
      rw [hfilter] at hnodup ⊢
      exact ih hnodup
    · rw [if_neg he]
      rw [Bool.not_eq_true] at he
      have hfilter : (e :: rest).filter (fun e => !base.contains e) =
          e :: rest.filter fun e => !base.contains e := by
        rw [List.filter_cons, he]
        rfl
      rw [hfilter, List.nodup_cons] at hnodup
      -- the new element does not come again, so it makes no difference for the rest
      have hsame : rest.filter (fun x => !(base ++ [e]).contains x) =
          rest.filter fun x => !base.contains x := by
        apply List.filter_congr
        intro x hx
        have hne : base.contains x = false → x ≠ e := by
          rintro hbase rfl
          exact hnodup.1 (List.mem_filter.2 ⟨hx, by rw [hbase]; rfl⟩)
        by_cases hbase : base.contains x = true
        · rw [List.contains_iff_mem] at hbase
          simp [hbase]
        · rw [Bool.not_eq_true] at hbase
          have hxe := hne hbase
          rw [← Bool.not_eq_true, List.contains_iff_mem] at hbase
          simp [hbase, hxe]
      rw [ih (hsame ▸ hnodup.2), hsame, hfilter, List.append_assoc]
      rfl

/-- A fork is absorbed when the epochs agree and what it gained is still free. -/
theorem absorb_eq_ok_iff : l.absorb f = .ok m ↔ f.epoch = l.epoch ∧ l.Free f.gained ∧
    m = { l.withEntries f.gained with
      manifest := f.manifest.foldl
        (fun listed e => if listed.contains e then listed else listed ++ [e]) l.manifest } := by
  unfold absorb
  simp only [guard_eq_ok, bind_eq_ok, record_eq_ok_iff, pure_eq_ok, ne_eq, not_not]
  constructor
  · rintro ⟨hepoch, taken, ⟨hfree, rfl⟩, rfl⟩
    exact ⟨hepoch, hfree, rfl⟩
  · rintro ⟨hepoch, hfree, rfl⟩
    exact ⟨hepoch, _, ⟨hfree, rfl⟩, rfl⟩

/-- The cargo of a ledger is taken. -/
def Stowed (l : Ledger) : Prop := ∀ e ∈ l.manifest, e.2 ∈ l.pieces

theorem Grows.pieces_eq {shipped : List (PieceId × PieceId)} (h : Grows l m added shipped) :
    m.pieces = l.pieces ++ added.map (·.1) := by
  rw [h.eq]
  simp [extend, pieces]

theorem Grows.manifest_eq {shipped : List (PieceId × PieceId)} (h : Grows l m added shipped) :
    m.manifest = l.manifest ++ shipped := by
  rw [h.eq]
  rfl

theorem Stowed.grows {shipped : List (PieceId × PieceId)} (hl : l.Stowed)
    (h : Grows l m added shipped) : m.Stowed := by
  intro e he
  rw [h.pieces_eq]
  rw [h.manifest_eq, List.mem_append] at he
  rcases he with he | he
  · exact List.mem_append_left _ (hl e he)
  · exact List.mem_append_right _ (List.mem_map_of_mem (f := (·.1)) (h.moved e he))

/-- What a fork has gained is what it has grown by. -/
theorem gained_grows {shipped : List (PieceId × PieceId)} (h : Grows l.fork f added shipped) :
    f.gained = added := by
  rw [h.eq]
  exact List.drop_left

/-- A ledger `m` that takes back a fork of its own past `l` grows by just what the fork has gained:
the cargo that the fork inherited is aboard in the ledger already. -/
theorem absorb_grown {k : Ledger} {added' : List (PieceId × Commitment)}
    {shipped shipped' : List (PieceId × PieceId)} (hl : l.Stowed) (h : Grows l m added shipped)
    (hf : Grows l.fork f added' shipped') :
    m.absorb f = .ok k ↔ m.Free added' ∧ k = m.extend added' shipped' := by
  have hepoch : f.epoch = m.epoch := by rw [hf.eq, h.eq]; rfl
  have hinherited : f.manifest = l.manifest ++ shipped' := hf.manifest_eq
  rw [absorb_eq_ok_iff, gained_grows hf]
  simp only [hepoch, true_and]
  refine and_congr_right fun hfree => ?_
  -- of the fork's cargo just what it shipped itself is news to the ledger
  have hold : l.manifest.filter (fun e => !m.manifest.contains e) = [] := by
    rw [List.filter_eq_nil_iff]
    intro e he
    have hmem : e ∈ m.manifest := h.manifest_eq ▸ List.mem_append_left _ he
    simpa using hmem
  have hnews : shipped'.filter (fun e => !m.manifest.contains e) = shipped' := by
    rw [List.filter_eq_self]
    intro e he
    have htaken := List.mem_map_of_mem (f := (·.1)) (hf.moved e he)
    have hmem : e ∉ m.manifest := fun hin => hfree.free e.2 htaken (hl.grows h e hin)
    simpa using hmem
  have hfilter : f.manifest.filter (fun e => !m.manifest.contains e) = shipped' := by
    rw [hinherited, List.filter_append, hold, hnews, List.nil_append]
  rw [foldl_listed (hfilter ▸ hf.once.of_map), hfilter]
  rfl

end Conquest.Ledger
