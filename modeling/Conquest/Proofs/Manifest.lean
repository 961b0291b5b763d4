import Conquest.Proofs.Forks

/-!
# Cargo and commitments

The manifest of a ledger stands beside its entries, and a fork is absorbed by two rules: of its
entries only those that it has gained, of its manifest all. Cargo that the fork inherited is in
order in the ledger that the fork was taken from, and need not be in any other.

* `Ledger.Becomes.grows`: a ledger that takes back its own forks only grows.
* `Ledger.absorb_fork_run`: what is done on a fork is done as if on the ledger.
* `Ledger.cargoTaken_absorb_iff`: which forks leave the cargo of a ledger in order.
* `Shelf.run_cargoTaken_iff`: which deeds leave the cargo of every ledger in order.
-/

namespace Conquest

namespace Ledger

variable {l m k f : Ledger} {added : List (PieceId × Commitment)}
  {shipped : List (PieceId × PieceId)}

/-- A piece is aboard exactly when the manifest says so. -/
theorem mem_embarked {t u : PieceId} : u ∈ l.embarked t ↔ (t, u) ∈ l.manifest := by
  unfold embarked
  rw [List.mem_map]
  constructor
  · rintro ⟨⟨t', u'⟩, he, rfl⟩
    rcases List.mem_filter.1 he with ⟨he, ht⟩
    rw [← beq_iff_eq.1 ht]
    exact he
  · intro he
    exact ⟨(t, u), List.mem_filter.2 ⟨he, beq_self_eq_true _⟩, rfl⟩

/-- Every piece aboard a transport is assigned to an order, and it is listed once over all
transports. -/
def CargoTaken (l : Ledger) : Prop :=
  ∀ t, ∀ u ∈ l.embarked t, (u, Commitment.moved) ∈ l.entries ∧ (l.embarked t).count u = 1 ∧
    ∀ t', u ∈ l.embarked t' → t' = t

/-- If a piece is aboard of one transport at most, that transport lists all there is of it. -/
theorem count_embarked {t u : PieceId} (h : ∀ t', u ∈ l.embarked t' → t' = t) :
    (l.embarked t).count u = (l.manifest.map (·.2)).count u := by
  unfold embarked
  rw [List.count_eq_countP, List.count_eq_countP, List.countP_map, List.countP_map,
    List.countP_filter]
  refine List.countP_congr fun e he => ?_
  have hother : e.2 = u → e.1 = t := by
    rintro rfl
    exact h e.1 (mem_embarked.2 he)
  simp only [Function.comp_apply, Bool.and_eq_true, beq_iff_eq]
  exact ⟨fun h => h.1, fun h => ⟨h, hother h⟩⟩

theorem cargoTaken_iff : l.CargoTaken ↔
    (∀ e ∈ l.manifest, (e.2, Commitment.moved) ∈ l.entries) ∧ (l.manifest.map (·.2)).Nodup := by
  constructor
  · intro h
    refine ⟨fun e he => (h e.1 e.2 (mem_embarked.2 he)).1, ?_⟩
    rw [List.nodup_iff_count_le_one]
    intro u
    by_cases hu : u ∈ l.manifest.map (·.2)
    · rcases List.mem_map.1 hu with ⟨e, he, rfl⟩
      rcases h e.1 e.2 (mem_embarked.2 he) with ⟨-, hcount, hone⟩
      rw [← count_embarked hone, hcount]
    · rw [List.count_eq_zero.2 hu]
      exact Nat.zero_le 1
  · rintro ⟨hmoved, honce⟩ t u hu
    have he := mem_embarked.1 hu
    have hone : ∀ t', u ∈ l.embarked t' → t' = t := by
      intro t' hu'
      have heq := List.inj_on_of_nodup_map honce (mem_embarked.1 hu') he rfl
      exact congrArg (·.1) heq
    refine ⟨hmoved _ he, ?_, hone⟩
    rw [count_embarked hone]
    exact List.count_eq_one_of_mem honce (List.mem_map.2 ⟨_, he, rfl⟩)

theorem CargoTaken.stowed (h : l.CargoTaken) : l.Stowed := by
  intro e he
  exact List.mem_map_of_mem (f := (·.1)) ((cargoTaken_iff.1 h).1 e he)

/-- A ledger that grows by requests keeps its cargo taken. -/
theorem CargoTaken.grows (hl : l.CargoTaken) (h : Grows l m added shipped) : m.CargoTaken := by
  rcases cargoTaken_iff.1 hl with ⟨hmoved, honce⟩
  have hentries : m.entries = l.entries ++ added := by rw [h.eq]; rfl
  rw [cargoTaken_iff, h.manifest_eq, hentries]
  constructor
  · intro e he
    rcases List.mem_append.1 he with he | he
    · exact List.mem_append_left _ (hmoved e he)
    · exact List.mem_append_right _ (h.moved e he)
  · rw [List.map_append, List.nodup_append]
    refine ⟨honce, h.once, ?_⟩
    -- what is shipped was free, and the cargo of the ledger is not
    rintro u hu w hw rfl
    rcases List.mem_map.1 hu with ⟨e, he, rfl⟩
    rcases List.mem_map.1 hw with ⟨e', he', heq⟩
    have htaken := List.mem_map_of_mem (f := (·.1)) (h.moved e' he')
    exact h.free.free e.2 (heq ▸ htaken) (hl.stowed e he)

theorem Grows.pieces_nodup (h : Grows l m added shipped) (hl : l.pieces.Nodup) :
    m.pieces.Nodup := by
  rw [h.pieces_eq, List.nodup_append]
  refine ⟨hl, h.free.nodup, ?_⟩
  rintro u hu w hw rfl
  exact h.free.free u hw hu

/-! ## Forks that go back -/

/-- What becomes of a ledger by requests and by absorbing forks that were taken from it on the way
and that became what they are in the same manner. -/
inductive Becomes : Ledger → Ledger → Prop where
  | refl (l : Ledger) : Becomes l l
  | request {l m : Ledger} (r : Request) : Becomes l m → Becomes l (m.obey r)
  | absorb {l k m f : Ledger} : Becomes l k → Becomes k m → Becomes k.fork f →
      Becomes l (m.takeIn f)

theorem takeIn_eq_self_or (l f : Ledger) : l.takeIn f = l ∨ l.absorb f = .ok (l.takeIn f) := by
  unfold takeIn
  cases habsorb : l.absorb f with
  | error e => exact .inl rfl
  | ok m => exact .inr rfl

/-- Whatever a ledger becomes, it has grown. -/
theorem Becomes.grows (h : Becomes l m) :
    l.Stowed → ∃ added shipped, Grows l m added shipped := by
  induction h with
  | refl l => exact fun _ => ⟨[], [], .refl l⟩
  | request r _ ih =>
    intro hl
    rcases ih hl with ⟨added, shipped, hm⟩
    rcases grows_obey _ r with ⟨added', shipped', hlast⟩
    exact ⟨_, _, hm.trans hlast⟩
  | @absorb l k m f _ _ _ ihk ihm ihf =>
    intro hl
    rcases ihk hl with ⟨added, shipped, hk⟩
    have hstowed : k.Stowed := hl.grows hk
    rcases ihm hstowed with ⟨added', shipped', hm⟩
    rcases ihf hstowed with ⟨added'', shipped'', hf⟩
    rcases takeIn_eq_self_or m f with heq | hok
    · rw [heq]
      exact ⟨_, _, hk.trans hm⟩
    · rcases (absorb_grown hstowed hm hf).1 hok with ⟨hfree, heq⟩
      exact ⟨_, _, (hk.trans hm).trans ⟨heq, hfree, hf.moved, hf.once⟩⟩

/-- The ledgers that come about if every fork is absorbed by the ledger that it was taken from or
not at all. The forks of one epoch are not those of the ledger that another epoch starts with. -/
inductive Made : Ledger → Prop where
  | new (e : Epoch) : Made (.new e)
  | becomes {l m : Ledger} : Made l → Becomes l m → Made m
  | fork {l : Ledger} : Made l → Made l.fork
  | advance {l : Ledger} (e : Epoch) : Made l → Made (l.advance e)

theorem cargoTaken_new (e : Epoch) : (Ledger.new e).CargoTaken :=
  cargoTaken_iff.2 ⟨fun _ he => (List.not_mem_nil he).elim, List.nodup_nil⟩

/-- A ledger that only took its own forks back, and while they were of its epoch, has taken all its
cargo. -/
theorem Made.cargoTaken (h : Made l) : l.CargoTaken := by
  induction h with
  | new e => exact cargoTaken_new e
  | becomes _ hm ih =>
    rcases hm.grows ih.stowed with ⟨added, shipped, hgrows⟩
    exact ih.grows hgrows
  | fork _ ih => exact ih
  | advance e _ _ => exact cargoTaken_new e

/-- A ledger whose cargo is taken does not show whether requests went to it or to a fork that it
then absorbed: the fork is absorbed, and the entries, their reasons and the manifest are the same,
in the same order. A ledger that is `Made` is such a ledger. `Made` does not speak of a fork that
outlives an advance of its ledger to the same epoch and is then absorbed: the epoch fits, but the
ledger that it was taken from is no more. -/
theorem absorb_fork_run (l : Ledger) : (Made l → l.CargoTaken) ∧
    ((∀ t, ∀ u ∈ l.embarked t, l.isCommitted u = true) → ∀ requests : List Request,
      l.absorb (l.fork.run requests) = .ok (l.run requests)) := by
  refine ⟨Made.cargoTaken, fun hcommitted requests => ?_⟩
  have hstowed : l.Stowed := by
    intro e he
    have hin := hcommitted e.1 e.2 (mem_embarked.2 he)
    exact List.contains_iff_mem.1 hin
  rcases grows_run l requests with ⟨added, shipped, hrun⟩
  have hfork : Grows l.fork (l.fork.run requests) added shipped := by
    refine ⟨?_, ⟨hrun.free.nodup, hrun.free.free⟩, hrun.moved, hrun.once⟩
    rw [run_fork, hrun.eq]
    rfl
  exact (absorb_grown hstowed (.refl l) hfork).2 ⟨hrun.free, hrun.eq⟩

/-- A ledger with a piece aboard a transport. -/
def boarded : Ledger := (Ledger.new .combat).obey (.embark 9 [1])

/-- Of these the first and the last are refused once a piece is aboard. -/
def requests : List Request := [.embark 9 [2, 1], .commit 3, .embark 9 [2], .hold 3]

theorem absorb_fork_run_boarded : Made boarded ∧ boarded.CargoTaken ∧
    boarded.absorb (boarded.fork.run requests) = .ok (boarded.run requests) ∧
    (boarded.run requests).entries = [(1, .moved), (3, .moved), (2, .moved)] ∧
    (boarded.run requests).embarked 9 = [1, 2] := by
  have hmade : Made boarded := .becomes (.new .combat) (.request _ (.refl _))
  have hcargo : boarded.CargoTaken := (absorb_fork_run boarded).1 hmade
  have hcommitted : ∀ t, ∀ u ∈ boarded.embarked t, boarded.isCommitted u = true := by
    intro t u hu
    exact List.contains_iff_mem.2 (hcargo.stowed _ (mem_embarked.1 hu))
  exact ⟨hmade, hcargo, (absorb_fork_run boarded).2 hcommitted requests, by decide, by decide⟩

/-! ## Forks that go elsewhere -/

/-- A fork suits a ledger if its cargo is aboard there, or was taken on the fork, or is assigned to
an order there and aboard of nothing. -/
def Suits (l f : Ledger) : Prop :=
  ∀ t, ∀ u ∈ f.embarked t, u ∈ l.embarked t ∨ u ∈ f.gained.map (·.1) ∨
    (u, Commitment.moved) ∈ l.entries ∧ ∀ t', u ∉ l.embarked t'

/-- Absorbing appends what the fork has gained. -/
theorem absorb_entries (h : l.absorb f = .ok m) : m.entries = l.entries ++ f.gained := by
  rw [(absorb_eq_ok_iff.1 h).2.2]
  rfl

/-- Absorbing appends what of the fork's manifest is not there yet. -/
theorem absorb_manifest (hf : f.CargoTaken) (h : l.absorb f = .ok m) :
    m.manifest = l.manifest ++ f.manifest.filter fun e => !l.manifest.contains e := by
  have hnodup : f.manifest.Nodup := (cargoTaken_iff.1 hf).2.of_map
  rw [(absorb_eq_ok_iff.1 h).2.2]
  exact foldl_listed (hnodup.filter _)

theorem absorb_pieces_nodup (hl : l.pieces.Nodup) (h : l.absorb f = .ok m) : m.pieces.Nodup := by
  rcases absorb_eq_ok_iff.1 h with ⟨-, hfree, -⟩
  have hpieces : m.pieces = l.pieces ++ f.gained.map (·.1) := by
    unfold pieces
    rw [absorb_entries h, List.map_append]
  rw [hpieces, List.nodup_append]
  refine ⟨hl, hfree.nodup, ?_⟩
  rintro u hu w hw rfl
  exact hfree.free u hw hu

/-- Cargo that the fork took itself is assigned to an order among what the fork has gained. -/
theorem moved_gained {t u : PieceId} (hf : f.CargoTaken) (hnodup : f.pieces.Nodup)
    (hu : u ∈ f.embarked t) (hgained : u ∈ f.gained.map (·.1)) :
    (u, Commitment.moved) ∈ f.gained := by
  rcases List.mem_map.1 hgained with ⟨e, he, rfl⟩
  have hmoved := (hf t _ hu).1
  have heq : e = (e.1, Commitment.moved) :=
    List.inj_on_of_nodup_map hnodup (List.mem_of_mem_drop he) hmoved rfl
  exact heq ▸ he

/-- The cargo is in order after a fork was absorbed just if the fork suited the ledger. -/
theorem cargoTaken_absorb_iff (hl : l.CargoTaken) (hf : f.CargoTaken) (hnodup : f.pieces.Nodup)
    (h : l.absorb f = .ok m) : m.CargoTaken ↔ l.Suits f := by
  have hentries := absorb_entries h
  have hmanifest := absorb_manifest hf h
  have hfree := (absorb_eq_ok_iff.1 h).2.1
  constructor
  · intro hm t u hu
    by_cases haboard : u ∈ l.embarked t
    · exact .inl haboard
    have hnews : (t, u) ∈ m.manifest := by
      rw [hmanifest, List.mem_append, List.mem_filter]
      refine .inr ⟨mem_embarked.1 hu, ?_⟩
      simpa [mem_embarked] using haboard
    rcases hm t u (mem_embarked.2 hnews) with ⟨hmoved, -, hone⟩
    rw [hentries, List.mem_append] at hmoved
    rcases hmoved with hmoved | hmoved
    · -- the ledger lists the piece nowhere: it would be aboard of two transports
      refine .inr (.inr ⟨hmoved, fun t' hu' => haboard ?_⟩)
      have hstill : u ∈ m.embarked t' := by
        rw [mem_embarked, hmanifest]
        exact List.mem_append_left _ (mem_embarked.1 hu')
      exact hone t' hstill ▸ hu'
    · exact .inr (.inl (List.mem_map.2 ⟨_, hmoved, rfl⟩))
  · intro hsuits
    rcases cargoTaken_iff.1 hl with ⟨hmoved, honce⟩
    rcases cargoTaken_iff.1 hf with ⟨-, hfonce⟩
    rw [cargoTaken_iff, hentries, hmanifest]
    constructor
    · intro e he
      rcases List.mem_append.1 he with he | he
      · exact List.mem_append_left _ (hmoved e he)
      · have hu : e.2 ∈ f.embarked e.1 := mem_embarked.2 (List.mem_filter.1 he).1
        -- new cargo was taken by the ledger, or by the fork since it was made
        rcases hsuits e.1 e.2 hu with haboard | hgained | ⟨htaken, -⟩
        · exact List.mem_append_left _ (hmoved e (mem_embarked.1 haboard))
        · exact List.mem_append_right _ (moved_gained hf hnodup hu hgained)
        · exact List.mem_append_left _ htaken
    · rw [List.map_append, List.nodup_append]
      refine ⟨honce, hfonce.sublist (List.filter_sublist.map _), ?_⟩
      rintro u hu w hw rfl
      rcases List.mem_map.1 hu with ⟨e, he, rfl⟩
      rcases List.mem_map.1 hw with ⟨e', he', heq⟩
      rcases List.mem_filter.1 he' with ⟨he', hnot⟩
      have hnews : e' ∉ l.manifest := by simpa using hnot
      rcases hsuits e'.1 e'.2 (mem_embarked.2 he') with haboard | hgained | ⟨-, hnowhere⟩
      · exact hnews (mem_embarked.1 haboard)
      · -- what the fork gained was free in the ledger, and its cargo is not
        exact hfree.free e'.2 hgained (heq ▸ hl.stowed e he)
      · exact hnowhere e.1 (mem_embarked.2 (heq ▸ he))

/-- A fork suits what has become of the ledger that it was taken from. -/
theorem Becomes.suits (hl : l.CargoTaken) (hm : Becomes l m) (hf : Becomes l.fork f) :
    m.Suits f := by
  rcases hm.grows hl.stowed with ⟨added, shipped, hgrows⟩
  have hstowed : l.fork.Stowed := hl.stowed
  rcases hf.grows hstowed with ⟨added', shipped', hgained⟩
  intro t u hu
  rw [mem_embarked, hgained.manifest_eq, List.mem_append] at hu
  rcases hu with hu | hu
  · refine .inl ?_
    rw [mem_embarked, hgrows.manifest_eq]
    exact List.mem_append_left _ hu
  · refine .inr (.inl ?_)
    rw [gained_grows hgained]
    exact List.mem_map.2 ⟨_, hgained.moved _ hu, rfl⟩

end Ledger

/-! ## Shelves -/

namespace Shelf

variable {s : Shelf} {n : Nat} {l : Ledger}

/-- A property of all ledgers of a shelf. -/
def All (p : Ledger → Prop) (s : Shelf) : Prop := ∀ n l, s n = some l → p l

/-- What holds of all ledgers on a shelf holds after a new one is put there. -/
theorem All.put {p : Ledger → Prop} {new : Option Ledger} (hs : s.All p)
    (hnew : ∀ l ∈ new, p l) : (s.put n new).All p := by
  intro n' l hl
  unfold Shelf.put at hl
  split at hl
  · exact hnew l hl
  · exact hs n' l hl

/-- A property of new ledgers that requests, forks and the absorbed forks of the shelf keep is kept
by every deed. -/
theorem All.obey {p : Ledger → Prop} (hs : s.All p) (hnew : ∀ e, p (.new e))
    (hrequest : ∀ l r, p l → p (l.obey r)) (hfork : ∀ l, p l → p l.fork) (d : Deed)
    (habsorb : ∀ n fork l f m, d = .absorb n fork → n ≠ fork → s n = some l → s fork = some f →
      l.absorb f = .ok m → p m) : (s.obey d).All p := by
  cases d with
  | new n e =>
    refine hs.put fun l hl => ?_
    rw [← Option.mem_some.1 hl]
    exact hnew e
  | request n r =>
    refine hs.put fun l hl => ?_
    rcases Option.map_eq_some_iff.1 hl with ⟨before, hbefore, rfl⟩
    exact hrequest before r (hs n before hbefore)
  | fork n copy =>
    simp only [Shelf.obey]
    split
    · next l hl =>
      refine hs.put fun f hf => ?_
      rw [← Option.mem_some.1 hf]
      exact hfork l (hs n l hl)
    · exact hs
  | absorb n fork =>
    simp only [Shelf.obey]
    split
    · next l f hl hf =>
      split
      · exact hs
      · next hne =>
        -- the fork leaves the shelf, and the ledger that absorbed it comes back
        have hrest : (s.put fork none).All p := hs.put fun _ h => by cases h
        refine hrest.put fun m hm => ?_
        rw [← Option.mem_some.1 hm]
        rcases l.takeIn_eq_self_or f with heq | hok
        · rw [heq]
          exact hs n l hl
        · exact habsorb n fork l f _ rfl hne hl hf hok
    · exact hs
  | advance n e =>
    refine hs.put fun l hl => ?_
    rcases Option.map_eq_some_iff.1 hl with ⟨before, -, rfl⟩
    exact hnew e

theorem run_concat (s : Shelf) (deeds : List Deed) (d : Deed) :
    s.run (deeds ++ [d]) = (s.run deeds).obey d := by
  simp [run]

theorem all_empty (p : Ledger → Prop) : empty.All p := by
  intro n l hl
  cases hl

/-- No ledger takes a piece twice. -/
theorem run_pieces_nodup (deeds : List Deed) : (empty.run deeds).All (·.pieces.Nodup) := by
  induction deeds using List.reverseRecOn with
  | nil => exact all_empty _
  | append_singleton rest d ih =>
    rw [run_concat]
    refine ih.obey (fun _ => List.nodup_nil) ?_ (fun _ h => h) d ?_
    · intro l r hl
      rcases l.grows_obey r with ⟨added, shipped, hgrows⟩
      exact hgrows.pieces_nodup hl
    · intro n fork l f m _ _ hl _ hok
      exact Ledger.absorb_pieces_nodup (ih n l hl) hok

/-- The cargo of every ledger is in order all the time just if every fork suited the ledger that
absorbed it, and a fork suits what has become of the ledger that it was taken from. -/
theorem run_cargoTaken_iff (deeds : List Deed) :
    ((∀ before, before <+: deeds → (empty.run before).All Ledger.CargoTaken) ↔
      ∀ before n fork l f m, before ++ [.absorb n fork] <+: deeds → n ≠ fork →
        empty.run before n = some l → empty.run before fork = some f → l.absorb f = .ok m →
        l.Suits f) ∧
    ∀ l m f : Ledger, l.CargoTaken → l.Becomes m → l.fork.Becomes f → m.Suits f := by
  refine ⟨⟨?_, ?_⟩, fun l m f hl hm hf => hm.suits hl hf⟩
  · intro horder before n fork l f m hbefore hne hl hf hok
    have hthen := horder _ hbefore
    have hfirst := horder before ((List.prefix_append _ _).trans hbefore)
    have hnodup := run_pieces_nodup before fork f hf
    refine (Ledger.cargoTaken_absorb_iff (hfirst n l hl) (hfirst fork f hf) hnodup hok).1 ?_
    refine hthen n m ?_
    rw [run_concat]
    simp [obey, hl, hf, hne, put, Ledger.takeIn, hok, Except.toOption]
  · -- of all deeds only absorbing a fork can bring cargo that is not taken
    intro hsuits before
    induction before using List.reverseRecOn with
    | nil => exact fun _ => all_empty _
    | append_singleton rest d ih =>
      intro hrest
      have hfirst := ih ((List.prefix_append _ _).trans hrest)
      rw [run_concat]
      refine hfirst.obey Ledger.cargoTaken_new ?_ (fun _ h => h) d ?_
      · intro l r hl
        rcases l.grows_obey r with ⟨added, shipped, hgrows⟩
        exact hl.grows hgrows
      · rintro n fork l f m rfl hne hl hf hok
        have hnodup := run_pieces_nodup rest fork f hf
        exact (Ledger.cargoTaken_absorb_iff (hfirst n l hl) (hfirst fork f hf) hnodup hok).2
          (hsuits rest n fork l f m hrest hne hl hf hok)

/-- A fork of a loaded ledger has taken more cargo, and meanwhile the ledger another piece. -/
def returning : List Deed :=
  [.new 0 .combat, .request 0 (.embark 9 [1]), .fork 0 1, .request 0 (.commit 3),
    .request 1 (.embark 9 [2]), .absorb 0 1]

/-- The fork goes back to the ledger that it was taken from, so all cargo stays in order. -/
theorem run_cargoTaken_returning :
    (∀ before, before <+: returning → (empty.run before).All Ledger.CargoTaken) ∧
      (empty.run returning 0).map (·.embarked 9) = some [1, 2] := by
  obtain ⟨hiff, hback⟩ := run_cargoTaken_iff returning
  refine ⟨hiff.2 ?_, by decide⟩
  intro before n fork l f m hbefore _ hl hf _
  -- the last deed is the only one that absorbs anything
  have hlast : returning[before.length]? = some (.absorb n fork) := by
    obtain ⟨after, heq⟩ := hbefore
    rw [← heq]
    simp
  have htake := List.prefix_iff_eq_take.1 ((List.prefix_append _ _).trans hbefore)
  have hcase : before.length = 5 ∧ n = 0 ∧ fork = 1 := by
    generalize before.length = i at hlast
    rcases i with _ | _ | _ | _ | _ | _ | i
    all_goals simp [returning] at hlast
    exact ⟨rfl, hlast.1.symm, hlast.2.symm⟩
  obtain ⟨hlen, rfl, rfl⟩ := hcase
  rw [htake, hlen] at hl hf
  cases hl
  cases hf
  have hmade : Ledger.Made Ledger.boarded := .becomes (.new .combat) (.request _ (.refl _))
  exact hback Ledger.boarded _ _ hmade.cargoTaken (.request (.commit 3) (.refl _))
    (.request (.embark 9 [2]) (.refl _))

/-- A fork of a loaded ledger is absorbed by a ledger that knows nothing of the cargo. -/
def straying : List Deed :=
  [.new 0 .combat, .request 0 (.embark 9 [1]), .fork 0 1, .new 2 .combat, .absorb 2 1]

/-- The cargo that the fork inherited is then aboard without being taken. -/
theorem cargo_not_taken : ∃ l, empty.run straying 2 = some l ∧ l.embarked 9 = [1] ∧
    l.entries = [] ∧ ¬l.CargoTaken := by
  refine ⟨⟨.combat, [], [(9, 1)], 0⟩, by decide, by decide, rfl, fun h => ?_⟩
  have htaken := (h 9 1 (by decide)).1
  exact List.not_mem_nil htaken

end Shelf

end Conquest
