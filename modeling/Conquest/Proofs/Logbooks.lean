import Conquest.Ledger.Logbook
import Conquest.Proofs.Manifest

/-!
# Logbooks keep their index

A logbook is written one piece at a time, into its entries and into its index, and nothing is taken
back on failure. Still it does what its ledger does: a batch is looked through first, so an
operation that fails has written nothing yet.

* `Logbook.Mirrors`: a logbook and the ledger behind it agree.
* `Logbook.Mirrors.perform`, `Logbook.Mirrors.absorb`: what is done to a logbook is what is done
  to its ledger, and a failure leaves the logbook as it was.
* `Logbooks.run_orderly`: any number of logbooks, after any deeds.
-/

namespace Conquest

namespace Logbook

variable {α β : Type} {r r' f : Logbook} {l m g : Ledger} {u : PieceId} {how : Commitment}
  {added : List (PieceId × Commitment)}

/-- After a step that succeeds the next one goes on from its result and its book. -/
theorem bind_ok {x : Keeping α} {k : α → Keeping β} {a : α} (h : x r = .ok a r') :
    (x >>= k) r = k a r' := by
  show EStateM.bind x k r = _
  unfold EStateM.bind
  rw [h]

/-- A step that fails ends the computation with the book as it is then. -/
theorem bind_error {x : Keeping α} {k : α → Keeping β} {e : PlanError} (h : x r = .error e r') :
    (x >>= k) r = .error e r' := by
  show EStateM.bind x k r = _
  unfold EStateM.bind
  rw [h]

theorem get_eq (r : Logbook) : (get : Keeping Logbook) r = .ok r r := rfl

theorem isCommitted_iff : r.isCommitted u = true ↔ u ∈ r.index := decide_eq_true_iff

/-- The logbook with one more piece. -/
def written (r : Logbook) (u : PieceId) (how : Commitment) : Logbook :=
  { r with entries := r.entries ++ [(u, how)], index := insert u r.index }

/-- A committed piece is refused; any other is written down. -/
theorem enter_eq (r : Logbook) (u : PieceId) (how : Commitment) : enter u how r =
    if r.isCommitted u then .error (.doubleCommit u r.epoch) r else .ok () (r.written u how) := by
  unfold enter
  rw [bind_ok (get_eq r)]
  by_cases hu : r.isCommitted u = true
  · rw [if_pos hu, if_pos hu]
    rfl
  · rw [if_neg hu, if_neg hu]
    rfl

/-- The check looks at one piece after another, against the book and the batch so far. -/
theorem check_cons (r : Logbook) (batch : Finset PieceId) (u : PieceId) (rest : List PieceId) :
    check batch (u :: rest) r = if r.isCommitted u || decide (u ∈ batch)
      then .error (.doubleCommit u r.epoch) r else check (insert u batch) rest r := by
  rw [check, bind_ok (get_eq r)]
  by_cases hu : (r.isCommitted u || decide (u ∈ batch)) = true
  · rw [if_pos hu, if_pos hu]
    rfl
  · rw [if_neg hu, if_neg hu]

/-- Holding a committed piece writes nothing and says so. -/
theorem hold_eq (r : Logbook) (u : PieceId) :
    hold u r = if r.isCommitted u then .ok false r else .ok true (r.written u .held) := by
  by_cases hu : r.isCommitted u = true
  · rw [if_pos hu]
    have hfails : (do enter u .held; return true : Keeping Bool) r =
        .error (.doubleCommit u r.epoch) r := by
      apply bind_error
      rw [enter_eq, if_pos hu]
    show EStateM.tryCatch _ _ r = _
    unfold EStateM.tryCatch
    rw [hfails]
    rfl
  · rw [if_neg hu]
    have hdone : (do enter u .held; return true : Keeping Bool) r =
        .ok true (r.written u .held) := by
      rw [bind_ok (show enter u .held r = .ok () (r.written u .held) by rw [enter_eq, if_neg hu])]
      rfl
    show EStateM.tryCatch _ _ r = _
    unfold EStateM.tryCatch
    rw [hdone]

/-! ## The ledger behind a logbook -/

/-- A logbook is kept as its ledger says. -/
structure Mirrors (r : Logbook) (l : Ledger) : Prop where
  epoch : r.epoch = l.epoch
  entries : r.entries = l.entries
  index : ∀ u, u ∈ r.index ↔ u ∈ l.pieces
  aboard : ∀ t, r.aboard t = l.embarked t
  inherited : r.inherited = l.inherited

/-- An operation ends in a logbook that mirrors the ledger after it, or fails as on the ledger and
leaves the logbook as it was. -/
def Follows (outcome : EStateM.Result PlanError Logbook α) (r : Logbook)
    (answer : Except PlanError Ledger) : Prop :=
  match answer with
  | .ok m => ∃ a r', outcome = .ok a r' ∧ r'.Mirrors m
  | .error e => outcome = .error e r

/-- A book and its mirror agree on what is committed. -/
theorem Mirrors.isCommitted (h : r.Mirrors l) : r.isCommitted u = l.isCommitted u := by
  rw [Bool.eq_iff_iff, isCommitted_iff, Ledger.isCommitted_iff]
  exact h.index u

theorem Mirrors.gained (h : r.Mirrors l) : r.gained = l.gained := by
  unfold Logbook.gained Ledger.gained
  rw [h.entries, h.inherited]

theorem mirrors_new (e : Epoch) : (Logbook.new e).Mirrors (.new e) := by
  refine ⟨rfl, rfl, fun u => ?_, fun _ => rfl, rfl⟩
  simp [Logbook.new, Ledger.new, Ledger.pieces]

/-- Forking both keeps them mirrored. -/
theorem Mirrors.fork (h : r.Mirrors l) : r.fork.Mirrors l.fork := by
  refine ⟨h.epoch, h.entries, h.index, h.aboard, ?_⟩
  exact congrArg List.length h.entries

/-- Writing the same entry in both keeps them mirrored. -/
theorem Mirrors.written (h : r.Mirrors l) (u : PieceId) (how : Commitment) :
    (r.written u how).Mirrors (l.withEntries [(u, how)]) := by
  refine ⟨h.epoch, congrArg (· ++ [(u, how)]) h.entries, fun w => ?_, h.aboard, h.inherited⟩
  rw [Ledger.pieces_withEntries, List.mem_append, ← h.index w]
  simp [Logbook.written, or_comm]

theorem Mirrors.enter (h : r.Mirrors l) (u : PieceId) (how : Commitment) :
    Follows (Logbook.enter u how r) r (l.record [(u, how)]) := by
  rw [enter_eq, h.isCommitted]
  by_cases hu : l.isCommitted u = true
  · have hrecord : l.record [(u, how)] = .error (.doubleCommit u l.epoch) := by
      simp [Ledger.record, Ledger.conflict?, hu]
    rw [if_pos hu, hrecord, h.epoch]
    rfl
  · have hrecord : l.record [(u, how)] = .ok (l.withEntries [(u, how)]) := by
      simp [Ledger.record, Ledger.conflict?, hu, Ledger.withEntries]
    rw [if_neg hu, hrecord]
    exact ⟨(), _, rfl, h.written u how⟩

/-- The search fails at the piece that the ledger names. -/
theorem Mirrors.check_eq (h : r.Mirrors l) (us : List PieceId) {batch : Finset PieceId}
    {seen : List PieceId} (hseen : ∀ u, u ∈ batch ↔ u ∈ seen) :
    check batch us r = match l.conflict? seen us with
      | some u => .error (.doubleCommit u r.epoch) r
      | none => .ok () r := by
  induction us generalizing batch seen with
  | nil => rfl
  | cons u rest ih =>
    have hbatch : decide (u ∈ batch) = seen.contains u := by
      rw [Bool.eq_iff_iff, decide_eq_true_iff, List.contains_iff_mem]
      exact hseen u
    rw [check_cons, h.isCommitted, hbatch, Ledger.conflict?]
    by_cases hu : (l.isCommitted u || seen.contains u) = true
    · rw [if_pos hu, if_pos hu]
    · rw [if_neg hu, if_neg hu]
      refine ih fun w => ?_
      rw [Finset.mem_insert, List.mem_cons, hseen w]

/-- Pieces that are free together are entered one after the other. -/
theorem Mirrors.enterEach (h : r.Mirrors l) (hfree : l.Free added) :
    ∃ r', enterEach added r = .ok () r' ∧ r'.Mirrors (l.withEntries added) := by
  induction added generalizing r l with
  | nil =>
    refine ⟨r, rfl, ?_⟩
    rw [Ledger.withEntries, List.append_nil]
    exact h
  | cons e rest ih =>
    have hcons := hfree.nodup
    rw [List.map_cons, List.nodup_cons] at hcons
    have hfirst : r.isCommitted e.1 = false := by
      rw [h.isCommitted, Ledger.isCommitted_eq_false_iff]
      exact hfree.free e.1 List.mem_cons_self
    -- the first entry is none of the later ones
    have hrest : (l.withEntries [e]).Free rest := by
      refine ⟨hcons.2, fun u hu hin => ?_⟩
      rw [Ledger.pieces_withEntries, List.mem_append] at hin
      rcases hin with hin | hin
      · exact hfree.free u (List.mem_cons_of_mem _ hu) hin
      · rw [List.map_singleton, List.mem_singleton] at hin
        exact hcons.1 (hin ▸ hu)
    rcases ih (h.written e.1 e.2) hrest with ⟨r', hr', hmirrors⟩
    refine ⟨r', ?_, ?_⟩
    · have hwritten : Logbook.enter e.1 e.2 r = .ok () (r.written e.1 e.2) := by
        rw [enter_eq, hfirst]
        rfl
      rw [Logbook.enterEach, bind_ok hwritten]
      exact hr'
    · have hall : (l.withEntries [e]).withEntries rest = l.withEntries (e :: rest) := by
        simp [Ledger.withEntries]
      exact hall ▸ hmirrors

/-- Entering a batch follows recording it: both take all of it or refuse the same piece. -/
theorem Mirrors.enterAll (h : r.Mirrors l) (added : List (PieceId × Commitment)) :
    Follows (enterAll added r) r (l.record added) := by
  have hnone : ∀ u : PieceId, u ∈ (∅ : Finset PieceId) ↔ u ∈ ([] : List PieceId) := by simp
  have hcheck := h.check_eq (added.map (·.1)) hnone
  unfold Logbook.enterAll Ledger.record
  cases hc : l.conflict? [] (added.map (·.1)) with
  | some u =>
    rw [hc] at hcheck
    rw [bind_error hcheck, h.epoch]
    rfl
  | none =>
    rw [hc] at hcheck
    rw [bind_ok hcheck]
    rcases Ledger.conflict?_eq_none.1 hc with ⟨hnodup, hfree⟩
    rcases h.enterEach ⟨hnodup, fun u hu => (hfree u hu).1⟩ with ⟨r', hr', hmirrors⟩
    exact ⟨(), r', hr', hmirrors⟩

theorem embarked_append {t t' : PieceId} {cargo : List PieceId} :
    { l with manifest := l.manifest ++ cargo.map (t, ·) }.embarked t' =
      if t' = t then l.embarked t' ++ cargo else l.embarked t' := by
  unfold Ledger.embarked
  rw [List.filter_append, List.map_append, List.filter_map]
  split
  · next heq =>
    subst heq
    simp [Function.comp_def]
  · next hne => simp [Function.comp_def, Ne.symm hne]

/-- Embarking in the book follows embarking in its mirror. -/
theorem Mirrors.embark (h : r.Mirrors l) (t : PieceId) (cargo : List PieceId) :
    Follows (embark t cargo r) r (l.embark t cargo) := by
  have htaken := h.enterAll (cargo.map (·, .moved))
  unfold Logbook.embark Ledger.embark Logbook.commitAll Ledger.commitAll
  cases hrecord : l.record (cargo.map (·, .moved)) with
  | error e =>
    rw [hrecord] at htaken
    exact bind_error htaken
  | ok taken =>
    rw [hrecord] at htaken
    rcases htaken with ⟨_, r', hr', hmirrors⟩
    refine ⟨(), _, bind_ok hr', ⟨hmirrors.epoch, hmirrors.entries, hmirrors.index, fun t' => ?_,
      hmirrors.inherited⟩⟩
    rw [embarked_append, ← hmirrors.aboard]

/-- Listing what is not listed yet goes on for each transport by itself. -/
theorem filter_foldl_listed (t : PieceId) (news base : List (PieceId × PieceId)) :
    ((news.foldl (fun listed e => if listed.contains e then listed else listed ++ [e]) base).filter
        (·.1 == t)).map (·.2) =
      enlist ((base.filter (·.1 == t)).map (·.2)) ((news.filter (·.1 == t)).map (·.2)) := by
  induction news generalizing base with
  | nil => rfl
  | cons e rest ih =>
    rw [List.foldl_cons, ih]
    by_cases ht : e.1 = t
    · subst ht
      -- the transport lists the cargo exactly if the manifest lists the pair
      have hlisted : ((base.filter (·.1 == e.1)).map (·.2)).contains e.2 = base.contains e := by
        rw [Bool.eq_iff_iff, List.contains_iff_mem, List.contains_iff_mem, List.mem_map]
        constructor
        · rintro ⟨e', he', heq⟩
          rcases List.mem_filter.1 he' with ⟨hmem, hsame⟩
          exact Prod.ext (beq_iff_eq.1 hsame) heq ▸ hmem
        · intro hmem
          exact ⟨e, List.mem_filter.2 ⟨hmem, beq_self_eq_true _⟩, rfl⟩
      have hkeep : (e :: rest).filter (·.1 == e.1) = e :: rest.filter (·.1 == e.1) := by simp
      rw [hkeep, List.map_cons, enlist, enlist, List.foldl_cons, hlisted]
      split
      · rfl
      · rw [List.filter_append, List.map_append]
        simp
    · have hdrop : (e :: rest).filter (·.1 == t) = rest.filter (·.1 == t) := by simp [ht]
      rw [hdrop]
      split
      · rfl
      · rw [List.filter_append]
        simp [ht]

/-- Absorbing mirrored forks keeps the books mirrored. -/
theorem Mirrors.absorb (h : r.Mirrors l) (hf : f.Mirrors g) :
    Follows (absorb f r) r (l.absorb g) := by
  unfold Logbook.absorb Ledger.absorb
  rw [bind_ok (get_eq r), h.epoch, hf.epoch]
  by_cases hepoch : g.epoch = l.epoch
  · have htaken := h.enterAll g.gained
    simp only [ne_eq, hepoch, not_true_eq_false, if_false, hf.gained]
    show Follows ((Logbook.enterAll g.gained >>= _) r) r (l.record g.gained >>= _)
    cases hrecord : l.record g.gained with
    | error e =>
      rw [hrecord] at htaken
      exact bind_error htaken
    | ok taken =>
      rw [hrecord] at htaken
      rcases htaken with ⟨_, r', hr', hmirrors⟩
      refine ⟨(), _, bind_ok hr', ⟨hmirrors.epoch, hmirrors.entries, hmirrors.index, fun t => ?_,
        hmirrors.inherited⟩⟩
      show enlist (r'.aboard t) (f.aboard t) = _
      rw [hmirrors.aboard, hf.aboard]
      exact (filter_foldl_listed t g.manifest taken.manifest).symm
  · simp only [ne_eq, hepoch, not_false_eq_true, if_true]
    rfl

/-! ## What is asked of a logbook -/

theorem record_eq_error {e : PlanError} (h : l.record added = .error e) :
    ∃ u ∈ added.map (·.1), e = .doubleCommit u l.epoch ∧
      ((added.map (·.1)).Nodup → l.isCommitted u = true) := by
  unfold Ledger.record at h
  split at h
  · next u hu =>
    cases h
    rcases Ledger.mem_of_conflict? hu with ⟨hmem, htaken⟩
    refine ⟨u, hmem, rfl, fun hnodup => ?_⟩
    exact Ledger.isCommitted_iff.2 (htaken hnodup List.not_mem_nil)
  · cases h

/-- A logbook grants a request as its ledger does, or refuses it and is left as it was. -/
inductive Outcome (r : Logbook) (l : Ledger) (q : Ledger.Request) : Prop where
  | granted {r' : Logbook} {m : Ledger} (hanswer : l.answer? q = some m)
      (hperform : perform q r = .ok true r') (hmirrors : r'.Mirrors m)
  | failed {u : PieceId} (hanswer : l.answer? q = none) (hmem : u ∈ q.entries.map (·.1))
      (hperform : perform q r = .error (.doubleCommit u r.epoch) r)
  | refused {u : PieceId} (hanswer : l.answer? q = none) (hhold : q = .hold u)
      (hperform : perform q r = .ok false r)

theorem Follows.outcome {act : Keeping Unit} {answer : Except PlanError Ledger}
    {q : Ledger.Request} (h : Follows (act r) r answer)
    (hperform : perform q = do act; return true) (hanswer : l.answer? q = answer.toOption)
    (herror : ∀ e, answer = .error e → ∃ u ∈ q.entries.map (·.1), e = .doubleCommit u r.epoch) :
    r.Outcome l q := by
  cases answer with
  | ok m =>
    rcases h with ⟨_, r', hr', hmirrors⟩
    refine .granted hanswer ?_ hmirrors
    rw [hperform, bind_ok hr']
    rfl
  | error e =>
    rcases herror e rfl with ⟨u, hmem, rfl⟩
    exact .failed hanswer hmem (hperform ▸ bind_error h)

/-- A hold is granted, or refused without an error. -/
theorem Mirrors.perform_hold (h : r.Mirrors l) (u : PieceId) : r.Outcome l (.hold u) := by
  have henter := h.enter u .held
  have hanswer : l.answer? (.hold u) = (l.record [(u, .held)]).toOption := rfl
  have hperform : Logbook.perform (.hold u) r = hold u r := rfl
  rw [hold_eq] at hperform
  rw [enter_eq] at henter
  by_cases hu : r.isCommitted u = true
  · rw [if_pos hu] at henter hperform
    cases hrecord : l.record [(u, .held)] with
    | ok m =>
      rw [hrecord] at henter
      rcases henter with ⟨_, r', heq, -⟩
      cases heq
    | error e => exact .refused (hanswer.trans (congrArg Except.toOption hrecord)) rfl hperform
  · rw [if_neg hu] at henter hperform
    cases hrecord : l.record [(u, .held)] with
    | ok m =>
      rw [hrecord] at henter
      rcases henter with ⟨_, r', heq, hmirrors⟩
      cases heq
      exact .granted (hanswer.trans (congrArg Except.toOption hrecord)) hperform hmirrors
    | error e =>
      rw [hrecord] at henter
      cases henter

/-- Every request has the same outcome in the book and in its mirror. -/
theorem Mirrors.perform (h : r.Mirrors l) (q : Ledger.Request) : r.Outcome l q := by
  have herror : ∀ (added : List (PieceId × Commitment)) (e : PlanError),
      l.record added = .error e → ∃ u ∈ added.map (·.1), e = .doubleCommit u r.epoch := by
    intro added e he
    rcases record_eq_error he with ⟨u, hmem, heq, -⟩
    exact ⟨u, hmem, h.epoch ▸ heq⟩
  cases q with
  | commit u => exact (h.enter u .moved).outcome rfl rfl (herror _)
  | commitAll us => exact (h.enterAll _).outcome rfl rfl (herror _)
  | embark t cargo =>
    refine (h.embark t cargo).outcome rfl rfl fun e he => herror _ e ?_
    -- an embarkation fails only as its batch does
    unfold Ledger.embark at he
    show l.commitAll cargo = _
    cases hrecord : l.commitAll cargo with
    | ok taken =>
      rw [hrecord] at he
      cases he
    | error e' =>
      rw [hrecord] at he
      exact he
  | hold u => exact h.perform_hold u

/-- What a request does to a logbook. -/
structure Answers (r : Logbook) (q : Ledger.Request) : Prop where
  /-- All that is asked for is granted, or none of it. -/
  granted_iff : (∃ r', perform q r = .ok true r') ↔
    (q.entries.map (·.1)).Nodup ∧ ∀ u ∈ q.entries.map (·.1), r.isCommitted u = false
  appends : ∀ r', perform q r = .ok true r' →
    r'.entries = r.entries ++ q.entries ∧ r'.inherited = r.inherited
  /-- Only a hold is refused without an error. -/
  refused : ∀ r', perform q r = .ok false r' → r' = r ∧ ∃ u, q = .hold u
  failed : ∀ e r', perform q r = .error e r' →
    r' = r ∧ ∃ u ∈ q.entries.map (·.1), e = .doubleCommit u r.epoch

theorem Mirrors.free_iff (h : r.Mirrors l) : l.Free added ↔
    (added.map (·.1)).Nodup ∧ ∀ u ∈ added.map (·.1), r.isCommitted u = false := by
  simp only [h.isCommitted, Ledger.isCommitted_eq_false_iff]
  exact ⟨fun hfree => ⟨hfree.nodup, hfree.free⟩, fun ⟨hnodup, hfree⟩ => ⟨hnodup, hfree⟩⟩

/-- A mirrored book answers every request as it should. -/
theorem Mirrors.answers (h : r.Mirrors l) (q : Ledger.Request) : r.Answers q := by
  -- granted, failed, or a hold that is refused
  rcases h.perform q with
    ⟨hanswer, hperform, hmirrors⟩ | ⟨hanswer, hmem, hperform⟩ | ⟨hanswer, rfl, hperform⟩
  · rcases Ledger.answer?_eq_some_iff.1 hanswer with ⟨hfree, rfl⟩
    refine ⟨⟨fun _ => h.free_iff.1 hfree, fun _ => ⟨_, hperform⟩⟩, ?_, ?_, ?_⟩
    · intro r' hr'
      cases hperform.symm.trans hr'
      rw [hmirrors.entries, h.entries, hmirrors.inherited, h.inherited]
      exact ⟨rfl, rfl⟩
    · intro r' hr'
      cases hperform.symm.trans hr'
    · intro e r' hr'
      cases hperform.symm.trans hr'
  all_goals
    have hnot : ¬l.Free _ := fun hfree =>
      Option.some_ne_none _ ((Ledger.answer?_eq_some_iff.2 ⟨hfree, rfl⟩).symm.trans hanswer)
    rw [h.free_iff] at hnot
  · refine ⟨⟨?_, fun hfree => absurd hfree hnot⟩, ?_, ?_, ?_⟩
    · rintro ⟨r', hr'⟩
      cases hperform.symm.trans hr'
    · intro r' hr'
      cases hperform.symm.trans hr'
    · intro r' hr'
      cases hperform.symm.trans hr'
    · intro e r' hr'
      cases hperform.symm.trans hr'
      exact ⟨rfl, _, hmem, rfl⟩
  · refine ⟨⟨?_, fun hfree => absurd hfree hnot⟩, ?_, ?_, ?_⟩
    · rintro ⟨r', hr'⟩
      cases hperform.symm.trans hr'
    · intro r' hr'
      cases hperform.symm.trans hr'
    · intro r' hr'
      cases hperform.symm.trans hr'
      exact ⟨rfl, _, rfl⟩
    · intro e r' hr'
      cases hperform.symm.trans hr'

/-! ## What absorbing a fork does -/

theorem absorb_eq_error {e : PlanError} (h : l.absorb g = .error e) :
    g.epoch ≠ l.epoch ∧ e = .epochMismatch l.epoch g.epoch ∨
      g.epoch = l.epoch ∧ l.record g.gained = .error e := by
  unfold Ledger.absorb at h
  by_cases hepoch : g.epoch = l.epoch
  · refine .inr ⟨hepoch, ?_⟩
    rw [if_neg (not_not.2 hepoch)] at h
    change (l.record g.gained >>= _) = _ at h
    cases hrecord : l.record g.gained with
    | ok taken =>
      rw [hrecord] at h
      cases h
    | error e' =>
      rw [hrecord] at h
      exact h
  · rw [if_pos hepoch] at h
    cases h
    exact .inl ⟨hepoch, rfl⟩

/-- What absorbing a fork does to a logbook. -/
structure Absorbs (r f : Logbook) : Prop where
  fails_iff : (∃ e r', absorb f r = .error e r') ↔
    f.epoch ≠ r.epoch ∨ ∃ u ∈ f.gained.map (·.1), r.isCommitted u = true
  appends : ∀ r', absorb f r = .ok () r' →
    r'.entries = r.entries ++ f.gained ∧ r'.inherited = r.inherited
  failed : ∀ e r', absorb f r = .error e r' → r' = r ∧
    (f.epoch ≠ r.epoch ∧ e = .epochMismatch r.epoch f.epoch ∨ f.epoch = r.epoch ∧
      ∃ u ∈ f.gained.map (·.1), r.isCommitted u = true ∧ e = .doubleCommit u r.epoch)

/-- A mirrored book absorbs a mirrored fork as it should. -/
theorem Mirrors.absorbs (h : r.Mirrors l) (hf : f.Mirrors g) (hnodup : g.pieces.Nodup) :
    r.Absorbs f := by
  have hgained : (g.gained.map (·.1)).Nodup :=
    hnodup.sublist ((List.drop_sublist _ _).map _)
  have hfollows := h.absorb hf
  cases habsorb : l.absorb g with
  | ok m =>
    rw [habsorb] at hfollows
    rcases hfollows with ⟨_, r₁, hr₁, hmirrors⟩
    rcases Ledger.absorb_eq_ok_iff.1 habsorb with ⟨hepoch, hfree, rfl⟩
    rw [← h.epoch, ← hf.epoch] at hepoch
    refine ⟨⟨?_, ?_⟩, ?_, ?_⟩
    · rintro ⟨e, r', hr'⟩
      cases hr₁.symm.trans hr'
    · rw [hf.gained]
      rintro (hne | ⟨u, hu, htaken⟩)
      · exact absurd hepoch hne
      · rw [(h.free_iff.1 hfree).2 u hu] at htaken
        cases htaken
    · intro r' hr'
      cases hr₁.symm.trans hr'
      rw [hmirrors.entries, h.entries, hmirrors.inherited, h.inherited, hf.gained]
      exact ⟨rfl, rfl⟩
    · intro e r' hr'
      cases hr₁.symm.trans hr'
  | error e =>
    rw [habsorb] at hfollows
    -- a fork is refused for its epoch or for a piece that it gained
    have hwhy : f.epoch ≠ r.epoch ∧ e = .epochMismatch r.epoch f.epoch ∨ f.epoch = r.epoch ∧
        ∃ u ∈ f.gained.map (·.1), r.isCommitted u = true ∧ e = .doubleCommit u r.epoch := by
      rw [h.epoch, hf.epoch, hf.gained]
      rcases absorb_eq_error habsorb with hne | ⟨hepoch, hrecord⟩
      · exact .inl hne
      · rcases record_eq_error hrecord with ⟨u, hmem, heq, htaken⟩
        exact .inr ⟨hepoch, u, hmem, h.isCommitted.trans (htaken hgained), heq⟩
    refine ⟨⟨fun _ => ?_, fun _ => ⟨e, r, hfollows⟩⟩, ?_, ?_⟩
    · rcases hwhy with ⟨hne, -⟩ | ⟨-, u, hmem, htaken, -⟩
      · exact .inl hne
      · exact .inr ⟨u, hmem, htaken⟩
    · intro r' hr'
      cases hfollows.symm.trans hr'
    · intro e' r' hr'
      cases hfollows.symm.trans hr'
      exact ⟨rfl, hwhy⟩

/-! ## What is left behind -/

theorem Answers.prefix_after {q : Ledger.Request} (h : r.Answers q) :
    r.entries <+: (after (perform q) r).entries := by
  unfold after
  cases hperform : perform q r with
  | ok granted r' =>
    cases granted with
    | true => exact ⟨_, (h.appends r' hperform).1.symm⟩
    | false => exact (h.refused r' hperform).1 ▸ List.prefix_rfl
  | error e r' => exact (h.failed e r' hperform).1 ▸ List.prefix_rfl

theorem Absorbs.prefix_after (h : r.Absorbs f) : r.entries <+: (after (absorb f) r).entries := by
  unfold after
  cases habsorb : absorb f r with
  | ok _ r' => exact ⟨_, (h.appends r' habsorb).1.symm⟩
  | error e r' => exact (h.failed e r' habsorb).1 ▸ List.prefix_rfl

theorem Mirrors.after_perform (h : r.Mirrors l) (q : Ledger.Request) :
    (after (Logbook.perform q) r).Mirrors (l.obey q) := by
  unfold after Ledger.obey
  rcases h.perform q with
    ⟨hanswer, hperform, hmirrors⟩ | ⟨hanswer, -, hperform⟩ | ⟨hanswer, -, hperform⟩
  · rw [hperform, hanswer]
    exact hmirrors
  · rw [hperform, hanswer]
    exact h
  · rw [hperform, hanswer]
    exact h

theorem Mirrors.after_absorb (h : r.Mirrors l) (hf : f.Mirrors g) :
    (after (Logbook.absorb f) r).Mirrors (l.takeIn g) := by
  have hfollows := h.absorb hf
  unfold after Ledger.takeIn
  cases habsorb : l.absorb g with
  | ok m =>
    rw [habsorb] at hfollows
    rcases hfollows with ⟨_, r', hr', hmirrors⟩
    rw [hr']
    exact hmirrors
  | error e =>
    rw [habsorb] at hfollows
    rw [show Logbook.absorb f r = .error e r from hfollows]
    exact h

/-- No piece is entered twice, the index has just the pieces that are entered, and what was
inherited is part of the entries. -/
structure Orderly (r : Logbook) : Prop where
  nodup : (r.entries.map (·.1)).Nodup
  committed_iff : ∀ u, r.isCommitted u = true ↔ u ∈ r.entries.map (·.1)
  inherited_le : r.inherited ≤ r.entries.length

/-- A book whose mirror commits nothing twice is in order. -/
theorem Mirrors.orderly (h : r.Mirrors l) (hnodup : l.pieces.Nodup)
    (hinherited : l.inherited ≤ l.length) : r.Orderly := by
  refine ⟨?_, fun u => ?_, ?_⟩
  · rw [h.entries]
    exact hnodup
  · rw [h.isCommitted, h.entries]
    exact Ledger.isCommitted_iff
  · rw [h.inherited, h.entries]
    exact hinherited

end Logbook

/-! ## Families of logbooks -/

namespace Shelf

/-- The deed puts another ledger in a place, or starts another epoch there. -/
def Deed.Restarts (d : Deed) (number : Nat) : Prop :=
  match d with
  | .new n _ => n = number
  | .fork _ copy => copy = number
  | .advance n _ => n = number
  | .request _ _ => False
  | .absorb _ _ => False

/-- No ledger has inherited more than it holds. -/
theorem run_inherited_le (deeds : List Deed) :
    (empty.run deeds).All fun l => l.inherited ≤ l.length := by
  induction deeds using List.reverseRecOn with
  | nil => exact all_empty _
  | append_singleton rest d ih =>
    rw [run_concat]
    refine ih.obey (fun _ => Nat.le_refl _) ?_ (fun _ _ => Nat.le_refl _) d ?_
    · intro l r hl
      rcases l.grows_obey r with ⟨added, shipped, hgrows⟩
      rw [hgrows.eq]
      simp only [Ledger.extend, Ledger.length, List.length_append]
      exact Nat.le_add_right_of_le hl
    · intro n fork l f m _ _ hl _ hok
      rcases Ledger.absorb_eq_ok_iff.1 hok with ⟨-, -, rfl⟩
      simp only [Ledger.withEntries, Ledger.length, List.length_append]
      exact Nat.le_add_right_of_le (ih n l hl)

end Shelf

namespace Logbooks

variable {s : Logbooks} {S : Shelf}

/-- Every logbook of a family mirrors the ledger of its number. -/
def Mirrors (s : Logbooks) (S : Shelf) : Prop := ∀ n, Option.Rel Logbook.Mirrors (s n) (S n)

theorem Mirrors.both_or_none (h : s.Mirrors S) (n : Nat) :
    (∃ r l, s n = some r ∧ S n = some l ∧ r.Mirrors l) ∨ s n = none ∧ S n = none := by
  have hn := h n
  generalize s n = x at hn ⊢
  generalize S n = y at hn ⊢
  cases hn with
  | some hn => exact .inl ⟨_, _, rfl, rfl, hn⟩
  | none => exact .inr ⟨rfl, rfl⟩

theorem Mirrors.put {r : Option Logbook} {l : Option Ledger} (h : s.Mirrors S) (number : Nat)
    (hput : Option.Rel Logbook.Mirrors r l) : (s.put number r).Mirrors (S.put number l) := by
  intro n
  unfold Logbooks.put Shelf.put
  split
  · exact hput
  · exact h n

/-- A deed keeps two shelves mirrored. -/
theorem Mirrors.obey (h : s.Mirrors S) (d : Shelf.Deed) : (s.obey d).Mirrors (S.obey d) := by
  cases d with
  | new n e => exact h.put n (.some (Logbook.mirrors_new e))
  | request n q =>
    refine h.put n ?_
    rcases h.both_or_none n with ⟨r, l, hr, hl, hn⟩ | ⟨hr, hl⟩
    · rw [hr, hl]
      exact .some (hn.after_perform q)
    · rw [hr, hl]
      exact .none
  | fork n copy =>
    simp only [Logbooks.obey, Shelf.obey]
    rcases h.both_or_none n with ⟨r, l, hr, hl, hn⟩ | ⟨hr, hl⟩
    · rw [hr, hl]
      exact h.put copy (.some hn.fork)
    · rw [hr, hl]
      exact h
  | absorb n fork =>
    -- both shelves look for the ledger and for its fork, and nothing is absorbed by itself
    simp only [Logbooks.obey, Shelf.obey]
    rcases h.both_or_none n with ⟨r, l, hr, hl, hn⟩ | ⟨hr, hl⟩
    · rcases h.both_or_none fork with ⟨f, g, hf, hg, hfork⟩ | ⟨hf, hg⟩
      · rw [hr, hl, hf, hg]
        by_cases heq : n = fork
        · simp only [if_pos heq]
          exact h
        · simp only [if_neg heq]
          exact (h.put fork .none).put n (.some (hn.after_absorb hfork))
      · rw [hr, hl, hf, hg]
        exact h
    · rw [hr, hl]
      exact h
  | advance n e =>
    refine h.put n ?_
    rcases h.both_or_none n with ⟨r, l, hr, hl, hn⟩ | ⟨hr, hl⟩
    · rw [hr, hl]
      exact .some (Logbook.mirrors_new e)
    · rw [hr, hl]
      exact .none

/-- After the same deeds the shelves are mirrored. -/
theorem run_mirrors (deeds : List Shelf.Deed) :
    (empty.run deeds).Mirrors (Shelf.empty.run deeds) := by
  induction deeds using List.reverseRecOn with
  | nil => exact fun _ => .none
  | append_singleton rest d ih =>
    rw [Shelf.run_concat, run, List.foldl_append]
    exact ih.obey d

theorem Mirrors.ledger (h : s.Mirrors S) {n : Nat} {r : Logbook} (hr : s n = some r) :
    ∃ l, S n = some l ∧ r.Mirrors l := by
  rcases h.both_or_none n with ⟨r', l, hr', hl, hn⟩ | ⟨hr', -⟩
  · cases hr.symm.trans hr'
    exact ⟨l, hl, hn⟩
  · cases hr.symm.trans hr'

/-- What absorbing leaves in a place stood there before, or has absorbed the fork. -/
theorem of_obey_absorb {k fork n : Nat} {r' : Logbook}
    (hr' : s.obey (.absorb k fork) n = some r') :
    s n = some r' ∨ ∃ r f, s n = some r ∧ s fork = some f ∧
      r' = Logbook.after (Logbook.absorb f) r := by
  cases hk : s k with
  | none =>
    simp only [Logbooks.obey, hk] at hr'
    exact .inl hr'
  | some r =>
    cases hf : s fork with
    | none =>
      simp only [Logbooks.obey, hk, hf] at hr'
      exact .inl hr'
    | some f =>
      simp only [Logbooks.obey, hk, hf] at hr'
      by_cases hself : k = fork
      · rw [if_pos hself] at hr'
        exact .inl hr'
      rw [if_neg hself] at hr'
      by_cases hn : n = k
      · subst hn
        simp only [put, if_true, Option.some.injEq] at hr'
        exact .inr ⟨r, f, hk, rfl, hr'.symm⟩
      · -- the place of the fork is cleared, any other is left alone
        simp only [put, if_neg hn] at hr'
        split at hr'
        · cases hr'
        · exact .inl hr'

/-- What a deed leaves in a place that it does not restart stood there before, has answered a
request, or has absorbed a fork. -/
theorem of_obey {d : Shelf.Deed} {n : Nat} {r' : Logbook} (hr' : s.obey d n = some r')
    (hd : ¬d.Restarts n) :
    s n = some r' ∨ (∃ r q, s n = some r ∧ r' = Logbook.after (Logbook.perform q) r) ∨
      ∃ r k f, s n = some r ∧ s k = some f ∧ r' = Logbook.after (Logbook.absorb f) r := by
  -- only a request and an absorption write in a book that was there
  cases d with
  | new k e => exact .inl ((if_neg (Ne.symm hd)).symm.trans hr')
  | advance k e => exact .inl ((if_neg (Ne.symm hd)).symm.trans hr')
  | fork k copy =>
    cases hk : s k with
    | none =>
      simp only [Logbooks.obey, hk] at hr'
      exact .inl hr'
    | some parent =>
      simp only [Logbooks.obey, hk] at hr'
      exact .inl ((if_neg (Ne.symm hd)).symm.trans hr')
  | request k q =>
    by_cases hk : n = k
    · subst hk
      simp only [Logbooks.obey, put, if_true, Option.map_eq_some_iff] at hr'
      rcases hr' with ⟨r, hr, rfl⟩
      exact .inr (.inl ⟨r, q, hr, rfl⟩)
    · exact .inl ((if_neg hk).symm.trans hr')
  | absorb k fork =>
    rcases of_obey_absorb hr' with hsame | ⟨r, f, hr, hf, rfl⟩
    · exact .inl hsame
    · exact .inr (.inr ⟨r, fork, f, hr, hf, rfl⟩)

/-- A logbook that stands where another stood, and was not put there anew, has its entries. -/
theorem prefix_of_obey {d : Shelf.Deed} {n : Nat} {r r' : Logbook}
    (hanswers : ∀ q, r.Answers q) (habsorbs : ∀ k f, s k = some f → r.Absorbs f)
    (hr : s n = some r) (hr' : s.obey d n = some r') (hd : ¬d.Restarts n) :
    r.entries <+: r'.entries := by
  rcases of_obey hr' hd with hsame | ⟨r₀, q, hr₀, rfl⟩ | ⟨r₀, k, f, hr₀, hf, rfl⟩
  · cases hr.symm.trans hsame
    exact List.prefix_rfl
  · cases hr.symm.trans hr₀
    exact (hanswers q).prefix_after
  · cases hr.symm.trans hr₀
    exact (habsorbs k f hf).prefix_after

/-- What holds of all logbooks of a family. -/
structure Kept (s : Logbooks) : Prop where
  orderly : ∀ n r, s n = some r → r.Orderly
  answers : ∀ n r, s n = some r → ∀ q, r.Answers q
  absorbs : ∀ n k r f, s n = some r → s k = some f → r.Absorbs f
  appends : ∀ d n r r', s n = some r → (s.obey d) n = some r' → ¬d.Restarts n →
    r.entries <+: r'.entries

/-- Whatever is done with any number of ledgers, in every one of them no piece is taken twice and
the index knows just the pieces of the entries. A deed appends to the entries it finds, a failure
leaves the whole logbook as it was, and a fork is not absorbed exactly if it is of another epoch or
has gained a piece that is taken. -/
theorem run_kept (deeds : List Shelf.Deed) :
    (empty.run deeds).Mirrors (Shelf.empty.run deeds) ∧ (empty.run deeds).Kept := by
  have hmirrors := run_mirrors deeds
  have hnodup := Shelf.run_pieces_nodup deeds
  have hanswers : ∀ n r, empty.run deeds n = some r → ∀ q, r.Answers q := by
    intro n r hr q
    rcases hmirrors.ledger hr with ⟨l, -, hl⟩
    exact hl.answers q
  have habsorbs : ∀ n k r f, empty.run deeds n = some r → empty.run deeds k = some f →
      r.Absorbs f := by
    intro n k r f hr hf
    rcases hmirrors.ledger hr with ⟨l, -, hl⟩
    rcases hmirrors.ledger hf with ⟨g, hg, hfork⟩
    exact hl.absorbs hfork (hnodup k g hg)
  refine ⟨hmirrors, ?_, hanswers, habsorbs, ?_⟩
  · intro n r hr
    rcases hmirrors.ledger hr with ⟨l, hl, hmirror⟩
    exact hmirror.orderly (hnodup n l hl) (Shelf.run_inherited_le deeds n l hl)
  · intro d n r r' hr hr' hd
    exact prefix_of_obey (hanswers n r hr) (fun k f => habsorbs n k r f hr) hr hr' hd

/-- A batch fails at its last piece, and none of it is entered. -/
example : (Logbook.after (Logbook.commitAll [1, 2, 3])
    (Logbook.after (Logbook.commit 3) (.new .combat))).entries = [(3, .moved)] := by decide

end Logbooks
end Conquest
