import Mathlib.Data.List.Nodup
import Conquest.Phase.Basic
import Conquest.Proofs.Choice
import Conquest.Proofs.Standing

/-!
# Drafting orders

Whatever plans orders takes pieces in the ledger as it names them. The bookkeeping is the same
everywhere, so it is stated once: a draft is a step from one ledger to a later one with the orders
given on the way.

* `Ensures`: a computation that may fail meets a postcondition, or fails only as foreseen.
* `Drafts`: the named pieces were free and are taken, no piece is named or taken twice, and on a
  well-formed board every piece that was taken is accounted for.
* `Ensures.collect_drafts`: a loop drafts if each round does.
* `Ensures.commitAll`, `Ensures.commitEach`, `Ensures.embark`, `Ensures.hold`: how pieces are taken.
-/

namespace Conquest

/-- The pieces that some orders name, in order. -/
def named (orders : List Order) : List PieceId := orders.flatMap (·.pieces)

@[simp] theorem named_nil : named [] = [] := rfl

@[simp] theorem named_cons (o : Order) (rest : List Order) :
    named (o :: rest) = o.pieces ++ named rest := rfl

@[simp] theorem named_singleton (o : Order) : named [o] = o.pieces := List.append_nil _

@[simp] theorem named_append (xs ys : List Order) : named (xs ++ ys) = named xs ++ named ys := by
  simp [named]

/-! ## Computations that may fail -/

section Computations

variable {σ α β : Type} {fails : PlanError → σ → Prop}

/-- From `s` the computation ends as `post` says, or fails for a foreseen reason. -/
def Ensures (fails : PlanError → σ → Prop) (m : EStateM PlanError σ α) (s : σ)
    (post : α → σ → Prop) : Prop :=
  match m s with
  | .ok a s' => post a s'
  | .error e s' => fails e s'

/-- Whether a computation ends with a result and a state that pass a test. -/
def endsWith (test : α → σ → Bool) (m : EStateM PlanError σ α) (s : σ) : Bool :=
  match m s with
  | .ok a s' => test a s'
  | .error _ _ => false

/-- The result that a computation is known to have passes the test. -/
theorem test_of_endsWith {test : α → σ → Bool} {m : EStateM PlanError σ α} {s s' : σ} {a : α}
    (h : endsWith test m s = true) (hm : m s = .ok a s') : test a s' = true := by
  unfold endsWith at h
  rw [hm] at h
  exact h

/-- A computation that ends with a passed test has a result that passes it. -/
theorem exists_of_endsWith {test : α → σ → Bool} {m : EStateM PlanError σ α} {s : σ}
    (h : endsWith test m s = true) : ∃ a s', m s = .ok a s' ∧ test a s' = true := by
  unfold endsWith at h
  split at h
  · rename_i a s' hm
    exact ⟨a, s', hm, h⟩
  · cases h

namespace Ensures

theorem pure {a : α} {s : σ} {post : α → σ → Prop} (h : post a s) :
    Ensures fails (Pure.pure a : EStateM PlanError σ α) s post := h

/-- Two steps ensure what the second ensures after the first. -/
theorem bind {m : EStateM PlanError σ α} {f : α → EStateM PlanError σ β} {s : σ}
    {post : β → σ → Prop} (h : Ensures fails m s fun a s' => Ensures fails (f a) s' post) :
    Ensures fails (m >>= f) s post := by
  unfold Ensures at h ⊢
  show match EStateM.bind m f s with
    | .ok a s' => post a s'
    | .error e s' => fails e s'
  unfold EStateM.bind
  cases hm : m s with
  | ok a s' =>
    rw [hm] at h
    exact h
  | error e s' =>
    rw [hm] at h
    exact h

theorem get {s : σ} {post : σ → σ → Prop} (h : post s s) :
    Ensures fails (MonadState.get : EStateM PlanError σ σ) s post := h

theorem change {f : σ → σ} {s : σ} {post : Unit → σ → Prop} (h : post () (f s)) :
    Ensures fails (modify f : EStateM PlanError σ Unit) s post := h

/-- What is ensured may be weakened. -/
theorem mono {m : EStateM PlanError σ α} {s : σ} {post post' : α → σ → Prop}
    (h : Ensures fails m s post) (hpost : ∀ a s', post a s' → post' a s') :
    Ensures fails m s post' := by
  unfold Ensures at h ⊢
  cases hm : m s with
  | ok a s' =>
    rw [hm] at h
    exact hpost a s' h
  | error e s' =>
    rw [hm] at h
    exact h

/-- What a computation ensures holds where it has ended. -/
theorem of_ok {m : EStateM PlanError σ α} {s s' : σ} {a : α} {post : α → σ → Prop}
    (h : Ensures fails m s post) (hm : m s = .ok a s') : post a s' := by
  unfold Ensures at h
  rw [hm] at h
  exact h

/-- Where no failure is foreseen the computation ends. -/
theorem exists_ok {m : EStateM PlanError σ α} {s : σ} {post : α → σ → Prop}
    (h : Ensures (fun _ _ => False) m s post) : ∃ a s', m s = .ok a s' ∧ post a s' := by
  unfold Ensures at h
  split at h
  · rename_i a s' hm
    exact ⟨a, s', hm, h⟩
  · exact h.elim

theorem imp {m : EStateM PlanError σ α} {s : σ} {post : α → σ → Prop}
    {fails' : PlanError → σ → Prop} (h : Ensures fails m s post)
    (hfails : ∀ e s', fails e s' → fails' e s') : Ensures fails' m s post := by
  unfold Ensures at h ⊢
  cases hm : m s with
  | ok a s' =>
    rw [hm] at h
    exact h
  | error e s' =>
    rw [hm] at h
    exact hfails e s' h

/-- Nothing is expected. -/
theorem trivial (m : EStateM PlanError σ α) (s : σ) :
    Ensures (fun _ _ => True) m s fun _ _ => True := by
  unfold Ensures
  split
  · exact True.intro
  · exact True.intro

/-- What a computation gives where it ends. -/
theorem returns (m : EStateM PlanError σ α) (s : σ) :
    Ensures (fun _ _ => True) m s fun a s' => m s = .ok a s' := by
  unfold Ensures
  split
  · rename_i a s' hm
    exact hm
  · exact True.intro

/-- Two things that hold of one computation, the second whenever it ends. -/
theorem and {m : EStateM PlanError σ α} {s : σ} {post post' : α → σ → Prop}
    (h : Ensures fails m s post) (h' : Ensures (fun _ _ => True) m s post') :
    Ensures fails m s fun a s' => post a s' ∧ post' a s' := by
  unfold Ensures at *
  cases hm : m s with
  | ok a s' =>
    rw [hm] at h h'
    exact ⟨h, h'⟩
  | error e s' =>
    rw [hm] at h
    exact h

/-- A loop that has some results keeps an invariant of what is left to do, the state and the
results. -/
theorem collect_from {f : α → EStateM PlanError σ (List β)} {J : List α → σ → List β → Prop}
    (hstep : ∀ x rest s out, J (x :: rest) s out →
      Ensures fails (f x) s fun got s' => J rest s' (out ++ got))
    {xs : List α} {s : σ} {out : List β} (h : J xs s out) :
    Ensures fails (Conquest.collect f xs) s fun got s' => J [] s' (out ++ got) := by
  induction xs generalizing s out with
  | nil =>
    refine pure ?_
    rw [List.append_nil]
    exact h
  | cons x rest ih =>
    refine bind ((hstep x rest s out h).mono ?_)
    -- the results of the first round are part of what the others start from
    intro first s₁ hfirst
    refine bind ((ih hfirst).mono ?_)
    intro others s₂ hothers
    refine pure ?_
    rw [← List.append_assoc]
    exact hothers

/-- A loop keeps an invariant of what is left to do, the state and the results so far. -/
theorem collect {f : α → EStateM PlanError σ (List β)} {J : List α → σ → List β → Prop}
    (hstep : ∀ x rest s out, J (x :: rest) s out →
      Ensures fails (f x) s fun got s' => J rest s' (out ++ got))
    {xs : List α} {s : σ} (h : J xs s []) :
    Ensures fails (Conquest.collect f xs) s fun got s' => J [] s' got := by
  refine (collect_from hstep h).mono ?_
  intro got s' hgot
  rw [List.nil_append] at hgot
  exact hgot

end Ensures

end Computations

/-! ## Taking pieces -/

namespace Ledger

variable {l : Ledger} {u : PieceId}

/-- A piece is committed when it is in the books. -/
theorem isCommitted_iff : l.isCommitted u = true ↔ u ∈ l.pieces := by
  simp [isCommitted]

theorem isCommitted_eq_false_iff : l.isCommitted u = false ↔ u ∉ l.pieces := by
  rw [← isCommitted_iff, Bool.not_eq_true]

/-- A batch has no conflict exactly when its pieces are free and listed once. -/
theorem conflict?_eq_none {batch us : List PieceId} :
    l.conflict? batch us = none ↔ us.Nodup ∧ ∀ u ∈ us, u ∉ l.pieces ∧ u ∉ batch := by
  induction us generalizing batch with
  | nil => simp [conflict?]
  | cons u rest ih =>
    unfold conflict?
    rw [List.nodup_cons, List.forall_mem_cons]
    -- the batch so far grows by each piece that causes no conflict
    by_cases hu : (l.isCommitted u || batch.contains u) = true
    · rw [if_pos hu]
      rw [Bool.or_eq_true, isCommitted_iff, List.contains_iff_mem] at hu
      simp only [reduceCtorEq, false_iff, not_and]
      rintro - ⟨hfree, hnew⟩
      rcases hu with hu | hu
      · exact absurd hu hfree
      · exact absurd hu hnew
    · rw [if_neg hu, ih]
      rw [Bool.or_eq_true, isCommitted_iff, List.contains_iff_mem, not_or] at hu
      constructor
      · rintro ⟨hnodup, hall⟩
        refine ⟨⟨?_, hnodup⟩, hu, ?_⟩
        · intro hmem
          exact (hall u hmem).2 List.mem_cons_self
        · intro w hw
          exact ⟨(hall w hw).1, fun hb => (hall w hw).2 (List.mem_cons_of_mem _ hb)⟩
      · rintro ⟨⟨hnot, hnodup⟩, -, hall⟩
        refine ⟨hnodup, ?_⟩
        intro w hw
        refine ⟨(hall w hw).1, ?_⟩
        intro hb
        rcases List.mem_cons.1 hb with rfl | hb
        · exact hnot hw
        · exact (hall w hw).2 hb

/-- The conflict of a batch without repetitions is a piece that is taken already. -/
theorem mem_of_conflict? {batch us : List PieceId} (h : l.conflict? batch us = some u) :
    u ∈ us ∧ (us.Nodup → u ∉ batch → u ∈ l.pieces) := by
  induction us generalizing batch with
  | nil => cases h
  | cons w rest ih =>
    unfold conflict? at h
    split at h
    · rename_i hw
      cases h
      rw [Bool.or_eq_true, isCommitted_iff, List.contains_iff_mem] at hw
      exact ⟨List.mem_cons_self, fun _ hnot => hw.resolve_right hnot⟩
    · rcases ih h with ⟨hmem, hprop⟩
      refine ⟨List.mem_cons_of_mem _ hmem, ?_⟩
      intro hnodup hnot
      rcases List.nodup_cons.1 hnodup with ⟨hw, hnodup⟩
      -- what the batch holds by then are the pieces listed before
      apply hprop hnodup
      intro hb
      rcases List.mem_cons.1 hb with rfl | hb
      · exact hw hmem
      · exact hnot hb

/-- The ledger with some more entries. -/
def withEntries (l : Ledger) (added : List (PieceId × Commitment)) : Ledger :=
  { l with entries := l.entries ++ added }

@[simp] theorem epoch_withEntries (added : List (PieceId × Commitment)) :
    (l.withEntries added).epoch = l.epoch := rfl

@[simp] theorem pieces_withEntries (added : List (PieceId × Commitment)) :
    (l.withEntries added).pieces = l.pieces ++ added.map (·.1) := by
  simp [withEntries, pieces]

/-- Pieces are free together if the first is free and the others are once it is taken. -/
theorem free_cons_iff {us : List PieceId} :
    ((u :: us).Nodup ∧ ∀ w ∈ u :: us, w ∉ l.pieces) ↔
      u ∉ l.pieces ∧ us.Nodup ∧ ∀ w ∈ us, w ∉ (l.withEntries [(u, .moved)]).pieces := by
  rw [List.nodup_cons, List.forall_mem_cons, pieces_withEntries]
  constructor
  · rintro ⟨⟨hnot, hnodup⟩, hu, hfree⟩
    refine ⟨hu, hnodup, ?_⟩
    intro w hw hin
    rcases List.mem_append.1 hin with hin | hin
    · exact hfree w hw hin
    · have hwu : w = u := by simpa using hin
      exact hnot (hwu ▸ hw)
  · rintro ⟨hu, hnodup, hfree⟩
    refine ⟨⟨?_, hnodup⟩, hu, ?_⟩
    · intro hin
      exact hfree u hin (List.mem_append_right _ (by simp))
    · intro w hw hin
      exact hfree w hw (List.mem_append_left _ hin)

theorem map_moved (us : List PieceId) :
    (us.map fun u => (u, Commitment.moved)).map (·.1) = us := by
  simp [Function.comp_def]

/-- After moving some pieces, those are in the books besides what was there. -/
theorem mem_pieces_moved {us : List PieceId} :
    u ∈ (l.withEntries (us.map (·, .moved))).pieces ↔ u ∈ l.pieces ∨ u ∈ us := by
  rw [pieces_withEntries, map_moved, List.mem_append]

/-- Free and distinct pieces are recorded. -/
theorem record_of_free {added : List (PieceId × Commitment)} (hnodup : (added.map (·.1)).Nodup)
    (hfree : ∀ u ∈ added.map (·.1), u ∉ l.pieces) : l.record added = .ok (l.withEntries added) := by
  unfold record
  rw [conflict?_eq_none.2 ⟨hnodup, fun u hu => ⟨hfree u hu, List.not_mem_nil⟩⟩]
  rfl

end Ledger

/-! ## Drafts -/

/-- What a plan is made for, and what is expected of it. -/
structure Brief where
  board : Board
  epoch : Epoch
  /-- What every order has to satisfy. -/
  fit : Order → Prop
  /-- Pieces that serve where they stand and need no order. -/
  spot : PieceId → Prop
  /-- Pieces that may come to be taken twice. -/
  slip : PieceId → Prop

/-- The failures that a brief foresees. -/
def Brief.Fails (B : Brief) (e : PlanError) (_ : Ledger) : Prop :=
  ∃ u, e = .doubleCommit u B.epoch ∧ B.slip u

/-- A piece that was taken for some orders: named by one of them, aboard a transport that one of
them names, or in its spot. -/
def Brief.Accounts (B : Brief) (orders : List Order) (u : PieceId) : Prop :=
  u ∈ named orders ∨ (∃ ship ∈ named orders, u ∈ B.board.cargoOf ship) ∨ B.spot u

/-- A step from ledger `l` to ledger `l'` with the orders given on the way. -/
structure Drafts (B : Brief) (l l' : Ledger) (orders : List Order) : Prop where
  epoch : l'.epoch = l.epoch
  inherited : l'.inherited = l.inherited
  nodup : l'.pieces.Nodup
  fit : ∀ o ∈ orders, B.fit o
  nodup_named : (named orders).Nodup
  entries : ∃ added, l'.entries = l.entries ++ added ∧
    (∀ u ∈ named orders, (u, Commitment.moved) ∈ added) ∧
    (B.board.Sound → ∀ u, (u, Commitment.moved) ∈ added → B.Accounts orders u)

/-- What is accounted for by some orders is so by more of them. -/
theorem Brief.Accounts.mono {B : Brief} {orders orders' : List Order} {u : PieceId}
    (h : B.Accounts orders u) (hsub : ∀ u ∈ named orders, u ∈ named orders') :
    B.Accounts orders' u := by
  rcases h with h | ⟨ship, hship, hcargo⟩ | h
  · exact .inl (hsub u h)
  · exact .inr (.inl ⟨ship, hsub ship hship, hcargo⟩)
  · exact .inr (.inr h)

namespace Drafts

variable {B : Brief} {l l' l'' : Ledger} {orders orders' : List Order}

theorem refl (hl : l.pieces.Nodup) : Drafts B l l [] := by
  refine ⟨rfl, rfl, hl, by simp, by simp, [], by simp, by simp, ?_⟩
  intro _ u hu
  cases hu

/-- What the orders of a draft name was free before. -/
theorem named_free (h : Drafts B l l' orders) {u : PieceId} (hu : u ∈ named orders) :
    u ∉ l.pieces := by
  rcases h.entries with ⟨added, hadded, hnamed, -⟩
  intro hin
  have hnodup := h.nodup
  rw [Ledger.pieces, hadded, List.map_append, List.nodup_append] at hnodup
  -- it was taken on the way, and nothing is taken twice
  exact hnodup.2.2 u hin u (List.mem_map.2 ⟨_, hnamed u hu, rfl⟩) rfl

/-- What the orders of a draft name is in the books after. -/
theorem named_subset (h : Drafts B l l' orders) : named orders ⊆ l'.pieces := by
  rcases h.entries with ⟨added, hadded, hnamed, -⟩
  intro u hu
  rw [Ledger.pieces, hadded, List.map_append]
  exact List.mem_append_right _ (List.mem_map.2 ⟨_, hnamed u hu, rfl⟩)

/-- Drafts after drafts are drafts. -/
theorem append (h : Drafts B l l' orders) (h' : Drafts B l' l'' orders') :
    Drafts B l l'' (orders ++ orders') := by
  rcases h.entries with ⟨added, hadded, hnamed, haccounts⟩
  rcases h'.entries with ⟨added', hadded', hnamed', haccounts'⟩
  refine ⟨h'.epoch.trans h.epoch, h'.inherited.trans h.inherited, h'.nodup, ?_, ?_,
    added ++ added', ?_, ?_, ?_⟩
  · intro o ho
    rcases List.mem_append.1 ho with ho | ho
    · exact h.fit o ho
    · exact h'.fit o ho
  · rw [named_append, List.nodup_append]
    refine ⟨h.nodup_named, h'.nodup_named, ?_⟩
    -- what the second part names was free in between, what the first names was not
    intro u hu w hw huw
    exact h'.named_free (huw ▸ hw) (h.named_subset hu)
  · rw [hadded', hadded, List.append_assoc]
  · intro u hu
    rw [named_append] at hu
    rcases List.mem_append.1 hu with hu | hu
    · exact List.mem_append_left _ (hnamed u hu)
    · exact List.mem_append_right _ (hnamed' u hu)
  · intro hb u hu
    rcases List.mem_append.1 hu with hu | hu
    · refine (haccounts hb u hu).mono ?_
      intro w hw
      rw [named_append]
      exact List.mem_append_left _ hw
    · refine (haccounts' hb u hu).mono ?_
      intro w hw
      rw [named_append]
      exact List.mem_append_right _ hw

/-- It does not matter in which order the orders are given. -/
theorem perm (h : Drafts B l l' orders) (hperm : orders.Perm orders') :
    Drafts B l l' orders' := by
  have hnamed : (named orders).Perm (named orders') := hperm.flatMap_right _
  rcases h.entries with ⟨added, hadded, htaken, haccounts⟩
  refine ⟨h.epoch, h.inherited, h.nodup, fun o ho => h.fit o (hperm.mem_iff.2 ho),
    hnamed.nodup_iff.1 h.nodup_named, added, hadded, ?_, ?_⟩
  · intro u hu
    exact htaken u (hnamed.mem_iff.2 hu)
  · intro hb u hu
    exact (haccounts hb u hu).mono fun w hw => hnamed.mem_iff.1 hw

/-- Free pieces that are taken draft the orders that name no others. -/
theorem of_moved {us : List PieceId} (hl : l.pieces.Nodup) (hus : us.Nodup)
    (hfree : ∀ u ∈ us, u ∉ l.pieces) (hfit : ∀ o ∈ orders, B.fit o)
    (hsub : (named orders).Sublist us)
    (haccounts : B.board.Sound → ∀ u ∈ us, B.Accounts orders u) :
    Drafts B l (l.withEntries (us.map (·, .moved))) orders := by
  refine ⟨rfl, rfl, ?_, hfit, hus.sublist hsub, us.map (·, .moved), rfl, ?_, ?_⟩
  · rw [Ledger.pieces_withEntries, Ledger.map_moved, List.nodup_append]
    refine ⟨hl, hus, ?_⟩
    intro u hu w hw huw
    exact hfree w hw (huw ▸ hu)
  · intro u hu
    exact List.mem_map.2 ⟨u, hsub.subset hu, rfl⟩
  · intro hb u hu
    rcases List.mem_map.1 hu with ⟨w, hw, heq⟩
    cases heq
    exact haccounts hb _ hw

/-- Free pieces that are taken for one order: those that it names, and perhaps what is aboard. -/
theorem of_order {us : List PieceId} {o : Order} (hl : l.pieces.Nodup) (hus : us.Nodup)
    (hfree : ∀ u ∈ us, u ∉ l.pieces) (hfit : B.fit o) (hsub : o.pieces.Sublist us)
    (haccounts : B.board.Sound → ∀ u ∈ us, u ∈ o.pieces ∨ ∃ ship ∈ o.pieces,
      u ∈ B.board.cargoOf ship) :
    Drafts B l (l.withEntries (us.map (·, .moved))) [o] := by
  refine .of_moved hl hus hfree ?_ ?_ ?_
  · intro x hx
    exact List.mem_singleton.1 hx ▸ hfit
  · rw [named_singleton]
    exact hsub
  · intro hb u hu
    rw [Brief.Accounts, named_singleton]
    exact (haccounts hb u hu).imp id .inl

/-- A ledger that differs in its manifest only. -/
theorem withManifest (h : Drafts B l l' orders) (manifest : List (PieceId × PieceId)) :
    Drafts B l { l' with manifest := manifest } orders :=
  ⟨h.epoch, h.inherited, h.nodup, h.fit, h.nodup_named, h.entries⟩

end Drafts

/-! ## Operations of the ledger -/

namespace Ensures

variable {B : Brief} {l : Ledger} {us : List PieceId} {post : Unit → Ledger → Prop}

/-- An operation of the ledger that is applied. -/
theorem apply {f : Ledger → Except PlanError Ledger} (hok : ∀ l', f l = .ok l' → post () l')
    (herror : ∀ e, f l = .error e → B.Fails e l) :
    Ensures B.Fails (Planning.apply f) l post := by
  unfold Ensures Planning.apply
  cases hf : f l with
  | ok l' => exact hok l' hf
  | error e => exact herror e hf

theorem discarded {α : Type} {m : Planning α} (h : Ensures B.Fails m l fun _ l' => post () l') :
    Ensures B.Fails (Functor.discard m) l post :=
  h.bind

/-- Taking a batch either succeeds or finds a piece of it taken. -/
theorem commitAll (hepoch : l.epoch = B.epoch)
    (hclash : ∀ u, l.conflict? [] us = some u → B.slip u)
    (hok : us.Nodup → (∀ u ∈ us, u ∉ l.pieces) → post () (l.withEntries (us.map (·, .moved)))) :
    Ensures B.Fails (Planning.commitAll us) l post := by
  unfold Planning.commitAll
  cases hc : l.conflict? [] us with
  | some u =>
    -- a conflict is an error of the ledger, and one that is foreseen
    have hrecord : l.commitAll us = .error (.doubleCommit u l.epoch) := by
      unfold Ledger.commitAll Ledger.record
      rw [Ledger.map_moved, hc]
    refine apply ?_ ?_
    · intro l' hl'
      rw [hrecord] at hl'
      cases hl'
    · intro e he
      rw [hrecord] at he
      cases he
      exact ⟨u, by rw [hepoch], hclash u hc⟩
  | none =>
    rcases Ledger.conflict?_eq_none.1 hc with ⟨hnodup, hfree⟩
    have hfree' : ∀ u ∈ us, u ∉ l.pieces := fun u hu => (hfree u hu).1
    have hrecord : l.commitAll us = .ok (l.withEntries (us.map (·, .moved))) := by
      apply Ledger.record_of_free
      · rw [Ledger.map_moved]
        exact hnodup
      · rw [Ledger.map_moved]
        exact hfree'
    refine apply ?_ ?_
    · intro l' hl'
      rw [hrecord] at hl'
      cases hl'
      exact hok hnodup hfree'
    · intro e he
      rw [hrecord] at he
      cases he

/-- Taking pieces one after another ends like taking them together. -/
theorem commitEach (hepoch : l.epoch = B.epoch)
    (hclash : ¬ (us.Nodup ∧ ∀ u ∈ us, u ∉ l.pieces) → ∀ u ∈ us, B.slip u)
    (hok : us.Nodup → (∀ u ∈ us, u ∉ l.pieces) → post () (l.withEntries (us.map (·, .moved)))) :
    Ensures B.Fails (Planning.commitEach us) l post := by
  induction us generalizing l with
  | nil =>
    have hnil := hok List.nodup_nil (by simp)
    rw [List.map_nil, Ledger.withEntries, List.append_nil] at hnil
    exact hnil
  | cons u rest ih =>
    have hunfold : Planning.commitEach (u :: rest) =
        (Planning.commitAll [u] >>= fun _ => Planning.commitEach rest) := rfl
    rw [hunfold]
    -- if the first piece is free, the others stand as before against the new ledger
    refine bind (commitAll hepoch ?_ ?_)
    · intro w hw
      rcases Ledger.mem_of_conflict? hw with ⟨hmem, hin⟩
      rw [List.mem_singleton] at hmem
      subst hmem
      have htaken := hin (List.nodup_singleton w) List.not_mem_nil
      exact hclash (fun hall => hall.2 w List.mem_cons_self htaken) w List.mem_cons_self
    · intro _ hufree
      have hu : u ∉ l.pieces := hufree u (List.mem_singleton_self u)
      refine ih (by rw [Ledger.epoch_withEntries, hepoch]) ?_ ?_
      · intro hrest w hw
        refine hclash ?_ w (List.mem_cons_of_mem _ hw)
        intro hall
        exact hrest (Ledger.free_cons_iff.1 hall).2
      · intro hnodup hfree
        have hall := Ledger.free_cons_iff.2 ⟨hu, hnodup, hfree⟩
        have hpost := hok hall.1 hall.2
        simpa [Ledger.withEntries] using hpost

/-- Embarking takes the cargo like any other batch. -/
theorem embark {ship : PieceId} (hepoch : l.epoch = B.epoch)
    (hclash : ∀ u, l.conflict? [] us = some u → B.slip u)
    (hok : us.Nodup → (∀ u ∈ us, u ∉ l.pieces) → ∀ manifest,
      post () { l.withEntries (us.map (·, .moved)) with manifest := manifest }) :
    Ensures B.Fails (Planning.apply (·.embark ship us)) l post := by
  -- only the manifest tells it from a batch of marches
  have hcommit : Ensures B.Fails (Planning.commitAll us) l fun _ l' =>
      ∀ manifest, post () { l' with manifest := manifest } := commitAll hepoch hclash hok
  unfold Ensures Planning.commitAll Planning.apply at hcommit
  cases hc : l.commitAll us with
  | error e =>
    simp only [hc] at hcommit
    refine apply ?_ ?_
    · intro l' hl'
      unfold Ledger.embark at hl'
      rw [hc] at hl'
      cases hl'
    · intro e' he'
      unfold Ledger.embark at he'
      rw [hc] at he'
      cases he'
      exact hcommit
  | ok taken =>
    simp only [hc] at hcommit
    refine apply ?_ ?_
    · intro l' hl'
      unfold Ledger.embark at hl'
      rw [hc] at hl'
      cases hl'
      exact hcommit _
    · intro e' he'
      unfold Ledger.embark at he'
      rw [hc] at he'
      cases he'

/-- Holding a piece never fails and moves nothing. -/
theorem hold {u : PieceId} {post : Bool → Ledger → Prop} (hl : l.pieces.Nodup)
    (hok : ∀ b l', Drafts B l l' [] → (∀ w ∈ l'.pieces, w ∈ l.pieces ∨ w = u) → post b l') :
    Ensures B.Fails (Planning.hold u) l post := by
  unfold Ensures Planning.hold Ledger.hold? Ledger.record
  cases hc : l.conflict? [] ([(u, Commitment.held)].map (·.1)) with
  | some w => exact hok false l (.refl hl) fun w hw => .inl hw
  | none =>
    -- what is taken already is not held, which is no failure
    rcases Ledger.conflict?_eq_none.1 hc with ⟨-, hfree⟩
    have hu : u ∉ l.pieces := (hfree u (by simp)).1
    have hpieces : (l.withEntries [(u, .held)]).pieces = l.pieces ++ [u] :=
      Ledger.pieces_withEntries _
    refine hok true (l.withEntries [(u, .held)]) ⟨rfl, rfl, ?_, by simp, by simp, _, rfl, by simp,
      ?_⟩ ?_
    · rw [hpieces, List.nodup_append]
      refine ⟨hl, List.nodup_singleton u, ?_⟩
      intro w hw x hx hwx
      rw [List.mem_singleton.1 hx] at hwx
      exact hu (hwx ▸ hw)
    · intro _ w hw
      rw [List.mem_singleton] at hw
      cases hw
    · intro w hw
      rw [hpieces] at hw
      exact (List.mem_append.1 hw).imp id List.mem_singleton.1

/-- Holding a list of pieces. -/
theorem holdEach {α : Type} {f : α → PieceId} {xs : List α} (hl : l.pieces.Nodup) :
    Ensures B.Fails (xs.forM fun x => discard (Planning.hold (f x))) l
      fun _ l' => Drafts B l l' [] ∧ ∀ w ∈ l'.pieces, w ∈ l.pieces ∨ w ∈ xs.map f := by
  induction xs generalizing l with
  | nil => exact .pure ⟨.refl hl, fun w hw => .inl hw⟩
  | cons x rest ih =>
    refine bind (discarded (hold hl ?_))
    intro b l' hfirst hnew
    refine (ih hfirst.nodup).mono ?_
    intro _ l'' hrest
    refine ⟨hfirst.append hrest.1, ?_⟩
    intro w hw
    rw [List.map_cons, List.mem_cons]
    rcases hrest.2 w hw with hw | hw
    · exact (hnew w hw).imp id .inl
    · exact .inr (.inr hw)

/-- A loop drafts if each round does. -/
theorem collect_drafts {α : Type} {f : α → Planning (List Order)} {xs : List α}
    (hstep : ∀ x ∈ xs, ∀ l : Ledger, l.pieces.Nodup → l.epoch = B.epoch →
      Ensures B.Fails (f x) l fun os l' => Drafts B l l' os)
    (hl : l.pieces.Nodup) (hepoch : l.epoch = B.epoch) :
    Ensures B.Fails (Conquest.collect f xs) l fun os l' => Drafts B l l' os := by
  refine (collect (J := fun rest l' out => rest ⊆ xs ∧ Drafts B l l' out) ?_
    ⟨fun _ h => h, .refl hl⟩).mono fun os l' h => h.2
  -- each round starts from the ledger that the rounds before have left
  rintro x rest l' out ⟨hsub, hdrafts⟩
  refine (hstep x (hsub List.mem_cons_self) l' hdrafts.nodup
    (hdrafts.epoch.trans hepoch)).mono ?_
  intro os l'' hround
  exact ⟨fun y hy => hsub (List.mem_cons_of_mem _ hy), hdrafts.append hround⟩

end Ensures

end Conquest
