import EmbeddedAlerts.Candidates

/-!
# A loop of offers

Both paths end in the same loop: for every item, a row is offered to
`eal_match_candidates`, and if a stored row has its match key, a fallback decides
whether that row is the answer.  `Offers` is such a loop, `Offers.Sound` what its
parts have to do with each other, and `Offers.Loop` its invariant: the store is
well formed, and the rows added so far are offers for items.

* `Offers.turn`: one turn.
* `Offers.forEach_ok`: **if no item is blocked, every item is answered**, with the
  row that was there, or with the offer if there was none.
* `Offers.forEach_error`: **if an item is blocked, the loop fails.**
-/

namespace EmbeddedAlerts

open Sql

/-- The rows a loop offers, the `n`-th of them under `ids n`, and which stored row
with the key of an offer its fallback takes for an answer. -/
structure Offers (ι : Type) where
  Item : ι → Prop
  limit : ℕ
  ids : ℕ → Uuid
  offer : ℕ → ι → MatchCandidateRow
  identity : ι → MatchIdentity
  fallback : MatchCandidateRow → Db → MatchCandidateRow → Bool
  accepts : MatchCandidateRow → Bool

namespace Offers

variable {ι β : Type} {x : Platform} {db s : Db} {o : Offers ι}

/-- The statement that offers a row. -/
def statement (o : Offers ι) (row : MatchCandidateRow) :
    Statement Db (Option (MatchCandidateRow × Bool)) := fun snapshot current => do
  let (selected, rows) ← matchCandidatesTable.insertOrSelect MatchCandidateRow.sameMatchKey
    (o.fallback row snapshot) current snapshot.matchCandidates current.matchCandidates row
  return (selected, { current with matchCandidates := rows })

structure Sound (x : Platform) (db : Db) (o : Offers ι) : Prop where
  id : ∀ n i, (o.offer n i).id = o.ids n
  distinct : ∀ m < o.limit, ∀ n < o.limit, o.ids m = o.ids n → m = n
  fresh : ∀ n < o.limit, ∀ r ∈ db.matchCandidates, r.id ≠ o.ids n
  identifies : ∀ n i, o.Item i → Identifies x db (o.offer n i) (o.identity i)
  unique : ∀ i j, o.Item i → o.Item j → o.identity i = o.identity j → i = j
  check : ∀ n i, o.Item i → matchCandidatesTable.check (o.offer n i) = true
  accepts : ∀ n i, o.accepts (o.offer n i) = true
  find : ∀ s, Wf x s → Grows db s → ∀ n i, o.Item i → ∀ r ∈ s.matchCandidates,
    (o.offer n i).sameMatchKey r = true →
    s.matchCandidates.find? (o.fallback (o.offer n i) s) = if o.accepts r then some r else none

/-- A stored row has the key of the item, and is no answer. -/
def Blocked (db : Db) (o : Offers ι) (i : ι) : Prop :=
  ∃ r ∈ db.matchCandidates, (o.offer 0 i).sameMatchKey r = true ∧ o.accepts r = false

/-- A stored row has the key of the item. -/
def Known (db : Db) (o : Offers ι) (i : ι) : Prop :=
  ∃ r ∈ db.matchCandidates, (o.offer 0 i).sameMatchKey r = true

theorem Blocked.known {i : ι} (h : o.Blocked db i) : o.Known db i := by
  obtain ⟨r, hr, hkey, -⟩ := h
  exact ⟨r, hr, hkey⟩

/-- The store before turn `k`. -/
structure Loop (x : Platform) (db : Db) (o : Offers ι) (k : ℕ) (s : Db) : Prop where
  wf : Wf x s
  rows : ∃ new, s = { db with matchCandidates := db.matchCandidates ++ new } ∧
    ∀ r ∈ new, ∃ j < k, ∃ i, o.Item i ∧ r = o.offer j i

theorem Loop.start (hwf : Wf x db) : Loop x db o 0 db :=
  ⟨hwf, [], by simp, by simp⟩

theorem Loop.grows {k : ℕ} (h : Loop x db o k s) : Grows db s := by
  obtain ⟨new, rfl, -⟩ := h.rows
  exact { Grows.refl db with matchCandidates := List.prefix_append _ _ }

theorem Loop.mono {k l : ℕ} (h : Loop x db o k s) (hkl : k ≤ l) : Loop x db o l s := by
  obtain ⟨new, hs, hnew⟩ := h.rows
  refine ⟨h.wf, new, hs, fun r hr => ?_⟩
  obtain ⟨j, hj, hitem⟩ := hnew r hr
  exact ⟨j, by omega, hitem⟩

/-- The item is answered with a stored row for it: the one that was there, or the
offer that was added because there was none. -/
structure Answered (db : Db) (o : Offers ι) (i : ι) (result : MatchCandidateRow) (s : Db) :
    Prop where
  item : o.Item i
  stored : result ∈ s.matchCandidates
  key : (o.offer 0 i).sameMatchKey result = true
  accepted : o.accepts result = true
  first : result ∈ db.matchCandidates ∨
    (∀ r ∈ db.matchCandidates, (o.offer 0 i).sameMatchKey r = false) ∧ ∃ n, result = o.offer n i

theorem forall₂_exists_map {g : MatchCandidateRow → β} {Q : ι → MatchCandidateRow → Prop} :
    ∀ {items : List ι} {bs : List β}, List.Forall₂ (fun i b => ∃ r, b = g r ∧ Q i r) items bs →
      ∃ rows, bs = rows.map g ∧ List.Forall₂ Q items rows := by
  intro items bs h
  induction h with
  | nil => exact ⟨[], rfl, .nil⟩
  | cons hb _ ih =>
    obtain ⟨r, rfl, hr⟩ := hb
    obtain ⟨rows, rfl, hrows⟩ := ih
    exact ⟨r :: rows, rfl, .cons hr hrows⟩

section Sound

variable (ho : o.Sound x db)

include ho

theorem Loop.fresh {k : ℕ} (h : Loop x db o k s) (hk : k < o.limit) :
    ∀ r ∈ s.matchCandidates, r.id ≠ o.ids k := by
  obtain ⟨new, rfl, hnew⟩ := h.rows
  intro r hr
  rcases List.mem_append.mp hr with hr | hr
  · exact ho.fresh k hk r hr
  · obtain ⟨j, hj, i, -, rfl⟩ := hnew r hr
    intro hid
    rw [ho.id] at hid
    have := ho.distinct j (by omega) k hk hid
    omega

theorem sameMatchKey_offer (m n : ℕ) {i : ι} (hi : o.Item i) (r : MatchCandidateRow) :
    (o.offer m i).sameMatchKey r = (o.offer n i).sameMatchKey r := by
  have hm := ho.identifies m i hi
  have hn := ho.identifies n i hi
  rw [Bool.eq_iff_iff, sameMatchKey_iff, sameMatchKey_iff, hm.tenantId, hn.tenantId, hm.key, hn.key]

theorem Loop.blocked {k : ℕ} (h : Loop x db o k s) {i : ι} {r : MatchCandidateRow}
    (hr : r ∈ s.matchCandidates) (hkey : (o.offer 0 i).sameMatchKey r = true)
    (haccepts : o.accepts r = false) : o.Blocked db i := by
  obtain ⟨new, rfl, hnew⟩ := h.rows
  rcases List.mem_append.mp hr with hr | hr
  · exact ⟨r, hr, hkey, haccepts⟩
  · obtain ⟨j, -, i', -, rfl⟩ := hnew r hr
    rw [ho.accepts] at haccepts
    cases haccepts

theorem Loop.accepts {k : ℕ} (h : Loop x db o k s) {i : ι} (hfree : ¬ o.Blocked db i)
    {r : MatchCandidateRow} (hr : r ∈ s.matchCandidates)
    (hkey : (o.offer 0 i).sameMatchKey r = true) : o.accepts r = true := by
  rw [← Bool.not_eq_false]
  exact fun haccepts => hfree (h.blocked ho hr hkey haccepts)

theorem Loop.first {k : ℕ} (h : Loop x db o k s) (hk : Function.Injective (Store.matchKey x))
    {i : ι} (hi : o.Item i) {r : MatchCandidateRow} (hr : r ∈ s.matchCandidates)
    (hkey : (o.offer 0 i).sameMatchKey r = true) :
    r ∈ db.matchCandidates ∨
      (∀ t ∈ db.matchCandidates, (o.offer 0 i).sameMatchKey t = false) ∧
        ∃ n, r = o.offer n i := by
  have hvalid := h.wf.valid
  obtain ⟨new, rfl, hnew⟩ := h.rows
  rcases List.mem_append.mp hr with hmem | hmem
  · exact Or.inl hmem
  · right
    obtain ⟨j, -, i', hi', rfl⟩ := hnew r hmem
    have hsame : i = i' := ho.unique i i' hi hi'
      (identity_eq hk (ho.identifies 0 i hi) (ho.identifies j i' hi') hkey)
    refine ⟨fun t ht => ?_, j, by rw [hsame]⟩
    -- a row of the old store with this key would be the new row, and that cannot be twice
    rw [Bool.eq_false_iff]
    intro ht'
    have hkeys := hvalid.matchCandidates.keys
    rw [List.pairwise_append] at hkeys
    have hdiff := hkeys.2.2 t ht _ hmem
    obtain ⟨h1, h2⟩ := sameMatchKey_iff.mp ht'
    obtain ⟨h3, h4⟩ := sameMatchKey_iff.mp hkey
    have hequal : t.sameMatchKey (o.offer j i') = true :=
      sameMatchKey_iff.mpr ⟨h1.symm.trans h3, h2.symm.trans h4⟩
    simp [matchCandidatesTable, hequal] at hdiff

/-- **One turn**: a stored row with the key of the offer goes to the fallback; if
there is none, the offer is added. -/
theorem turn {k : ℕ} (hkn : k < o.limit) {i : ι} (hi : o.Item i) (h : Loop x db o k s) :
    (∃ r ∈ s.matchCandidates, (o.offer 0 i).sameMatchKey r = true ∧
        o.statement (o.offer k i) s s
          = .ok ((if o.accepts r then some r else none).map fun r => (r, false), s)) ∨
      ((∀ r ∈ s.matchCandidates, (o.offer 0 i).sameMatchKey r = false) ∧
        o.statement (o.offer k i) s s = .ok (some (o.offer k i, true),
          { s with matchCandidates := s.matchCandidates ++ [o.offer k i] }) ∧
        Loop x db o (k + 1) { s with matchCandidates := s.matchCandidates ++ [o.offer k i] }) := by
  have hident : Identifies x s (o.offer k i) (o.identity i) := (ho.identifies k i hi).mono h.grows
  have hcheck := ho.check k i hi
  by_cases hexists : ∃ r ∈ s.matchCandidates, (o.offer k i).sameMatchKey r = true
  · obtain ⟨r, hr, hkey⟩ := hexists
    refine Or.inl ⟨r, hr, by rw [sameMatchKey_offer ho 0 k hi, hkey], ?_⟩
    rw [statement, Constraints.insertOrSelect_of_conflict hcheck hr hkey,
      ho.find s h.wf h.grows k i hi r hr hkey]
    rfl
  · have hnew : ∀ r ∈ s.matchCandidates, (o.offer k i).sameMatchKey r = false := by
      intro r hr
      rw [Bool.eq_false_iff]
      exact fun hkey => hexists ⟨r, hr, hkey⟩
    have hfresh : ∀ r ∈ s.matchCandidates, r.id ≠ (o.offer k i).id := by
      rw [ho.id]
      exact h.fresh ho hkn
    have hadmits := admits_of_identifies h.wf hident hcheck hfresh hnew
    refine Or.inr ⟨fun r hr => by rw [sameMatchKey_offer ho 0 k hi, hnew r hr], ?_, ?_, ?_⟩
    · rw [statement, Constraints.insertOrSelect_of_admits hadmits hnew]
      rfl
    · have hstep : Step x (fun _ _ => True) (o.offer k i).tenantId s
          { s with matchCandidates := s.matchCandidates ++ [o.offer k i] } :=
        .addCandidate hadmits rfl ⟨_, hident⟩ trivial
      exact h.wf.step hstep
    · obtain ⟨new, rfl, hrows⟩ := h.rows
      refine ⟨new ++ [o.offer k i], by simp, ?_⟩
      refine forall_mem_append_singleton (fun r hr => ?_) ⟨k, by omega, i, hi, rfl⟩
      obtain ⟨j, hj, hitem⟩ := hrows r hr
      exact ⟨j, by omega, hitem⟩

theorem turn_known {k : ℕ} (hkn : k < o.limit) {i : ι} (hi : o.Item i) (hknown : o.Known db i)
    (hfree : ¬ o.Blocked db i) (h : Loop x db o k s) :
    ∃ r, o.statement (o.offer k i) s s = .ok (some (r, false), s) := by
  rcases turn ho hkn hi h with ⟨r, hr, hkey, hturn⟩ | ⟨hnew, -, -⟩
  · have haccepts : o.accepts r = true := h.accepts ho hfree hr hkey
    rw [if_pos haccepts] at hturn
    exact ⟨r, hturn⟩
  · obtain ⟨r, hr, hkey⟩ := hknown
    rw [hnew r (h.grows.matchCandidates.subset hr)] at hkey
    cases hkey

theorem turn_blocked {k : ℕ} (hkn : k < o.limit) {i : ι} (hi : o.Item i) (hb : o.Blocked db i)
    (h : Loop x db o k s) : o.statement (o.offer k i) s s = .ok (none, s) := by
  obtain ⟨r, hr, hkey, haccepts⟩ := hb
  have hr' : r ∈ s.matchCandidates := h.grows.matchCandidates.subset hr
  rcases turn ho hkn hi h with ⟨t, ht, htkey, hturn⟩ | ⟨hnew, -, -⟩
  · have htr : t = r := by
      obtain ⟨h1, h2⟩ := sameMatchKey_iff.mp hkey
      obtain ⟨h3, h4⟩ := sameMatchKey_iff.mp htkey
      exact h.wf.valid.candidate_eq_of_key ht hr'
        (sameMatchKey_iff.mpr ⟨h3.symm.trans h1, h4.symm.trans h2⟩)
    rw [htr, haccepts, if_neg Bool.false_ne_true] at hturn
    exact hturn
  · rw [hnew r hr'] at hkey
    cases hkey

theorem Answered.for {k : ℕ} (hk : Function.Injective (Store.matchKey x)) {i : ι}
    {result : MatchCandidateRow} (h : o.Answered db i result s) (hloop : Loop x db o k s) :
    result.For (o.identity i).tenantId (o.identity i).alertRuleRevisionId
      (o.identity i).pageRevisionId (o.identity i).toModelSpace :=
  (sameMatchKey_iff_for hloop.wf hk ((ho.identifies 0 i h.item).mono hloop.grows) h.stored).mp h.key

/-! ### The loop -/

variable {f : ι × ℕ → Api β} {g : MatchCandidateRow → β} {e : HttpError}
  (hf : ∀ i n s r created s', o.statement (o.offer n i) s s = .ok (some (r, created), s') →
    f (i, n) s = (.ok (g r), s'))

include hf

theorem turn_ok (hk : Function.Injective (Store.matchKey x)) {k : ℕ} (hkn : k < o.limit) {i : ι}
    (hi : o.Item i) (hfree : ¬ o.Blocked db i) (h : Loop x db o k s) :
    ∃ r s', f (i, k) s = (.ok (g r), s') ∧ Loop x db o (k + 1) s' ∧ o.Answered db i r s' ∧
      s.matchCandidates <+: s'.matchCandidates := by
  rcases turn ho hkn hi h with ⟨r, hr, hkey, hturn⟩ | ⟨-, hturn, hloop⟩
  · have haccepts : o.accepts r = true := h.accepts ho hfree hr hkey
    rw [if_pos haccepts] at hturn
    exact ⟨r, s, hf i k s r false s hturn, h.mono (by omega),
      ⟨hi, hr, hkey, haccepts, h.first ho hk hi hr hkey⟩, List.prefix_refl _⟩
  · have hmem : o.offer k i ∈ s.matchCandidates ++ [o.offer k i] := by simp
    have hkey : (o.offer 0 i).sameMatchKey (o.offer k i) = true := by
      rw [sameMatchKey_offer ho 0 k hi]
      exact sameMatchKey_iff.mpr ⟨rfl, rfl⟩
    exact ⟨_, _, hf i k s _ true _ hturn, hloop,
      ⟨hi, hmem, hkey, ho.accepts k i, hloop.first ho hk hi hmem hkey⟩,
      List.prefix_append _ _⟩

/-- **If no item is blocked, every item is answered.** -/
theorem forEach_ok (hk : Function.Injective (Store.matchKey x)) (hwf : Wf x db) {items : List ι}
    (hitems : ∀ i ∈ items, o.Item i) (hlength : items.length ≤ o.limit)
    (hfree : ∀ i ∈ items, ¬ o.Blocked db i) :
    ∃ rows s, Action.forEach f items.zipIdx db = (.ok (rows.map g), s) ∧
      Loop x db o items.length s ∧
      List.Forall₂ (fun i result => o.Answered db i result s) items rows := by
  have hstep : ∀ i ∈ items, ∀ k < o.limit, ∀ s, Loop x db o k s →
      ∃ b s', f (i, k) s = (.ok b, s') ∧ Loop x db o (k + 1) s' ∧
        (∃ r, b = g r ∧ o.Answered db i r s') ∧
        ∀ j c, (∃ r, c = g r ∧ o.Answered db j r s) → ∃ r, c = g r ∧ o.Answered db j r s' := by
    intro i hi k hkn s hloop
    obtain ⟨r, s', hrun, hloop', hanswered, hgrows⟩ :=
      turn_ok ho hf hk hkn (hitems i hi) (hfree i hi) hloop
    refine ⟨g r, s', hrun, hloop', ⟨r, rfl, hanswered⟩, ?_⟩
    rintro j c ⟨t, rfl, ht⟩
    exact ⟨t, rfl, { ht with stored := hgrows.subset ht.stored }⟩
  obtain ⟨bs, s, hrun, hloop, hall, -⟩ :=
    Action.forEach_zipIdx_ok hstep 0 db (by rw [Nat.zero_add]; exact hlength) (Loop.start hwf)
  rw [Nat.zero_add] at hloop
  obtain ⟨rows, rfl, hrows⟩ := forall₂_exists_map hall
  exact ⟨rows, s, hrun, hloop, hrows⟩

/-- The loop leaves the table as it was exactly if every item was known. -/
theorem forEach_unchanged (hwf : Wf x db)
    {items : List ι} (hitems : ∀ i ∈ items, o.Item i) (hlength : items.length ≤ o.limit)
    (hfree : ∀ i ∈ items, ¬ o.Blocked db i) {rows : List MatchCandidateRow}
    (hrun : Action.forEach f items.zipIdx db = (.ok (rows.map g), s))
    (hall : List.Forall₂ (fun i result => o.Answered db i result s) items rows) :
    s.matchCandidates = db.matchCandidates ↔ ∀ i ∈ items, o.Known db i := by
  constructor
  · intro hsame i hi
    obtain ⟨row, -, hrow⟩ := exists_of_forall₂_left hall hi
    have hstored := hrow.stored
    rw [hsame] at hstored
    exact ⟨row, hstored, hrow.key⟩
  · intro hknown
    -- from the old store, every turn ends in the old store
    have hstep : ∀ i ∈ items, ∀ k < o.limit, ∀ s, s = db →
        ∃ b s', f (i, k) s = (.ok b, s') ∧ s' = db ∧ True ∧ ∀ (_ : ι) (_ : β), True → True := by
      rintro i hi k hkn s rfl
      have hloop : Loop x s o k s := (Loop.start hwf).mono (Nat.zero_le k)
      obtain ⟨r, hturn⟩ := turn_known ho hkn (hitems i hi) (hknown i hi) (hfree i hi) hloop
      exact ⟨g r, s, hf i k s r false s hturn, rfl, trivial, fun _ _ h => h⟩
    obtain ⟨bs, s', hrun', hs', -, -⟩ := Action.forEach_zipIdx_ok
      (Q := fun _ _ _ => True) hstep 0 db (by rw [Nat.zero_add]; exact hlength) rfl
    rw [hrun] at hrun'
    have hsame : s = s' := congrArg Prod.snd hrun'
    rw [hsame, hs']

/-- **If an item is blocked, the loop fails.** -/
theorem forEach_error (hk : Function.Injective (Store.matchKey x)) (hwf : Wf x db) {items : List ι}
    (hitems : ∀ i ∈ items, o.Item i) (hlength : items.length ≤ o.limit)
    (hnone : ∀ i n s s', o.statement (o.offer n i) s s = .ok (none, s') →
      f (i, n) s = (.error e, s'))
    (hblocked : ∃ i ∈ items, o.Blocked db i) :
    ∃ s, Action.forEach f items.zipIdx db = (.error e, s) := by
  have hgood : ∀ i ∈ items, ∀ k < o.limit, ∀ s, Loop x db o k s → ¬ o.Blocked db i →
      ∃ b s', f (i, k) s = (.ok b, s') ∧ Loop x db o (k + 1) s' := by
    intro i hi k hkn s hloop hfree
    obtain ⟨r, s', hrun, hloop', -⟩ := turn_ok ho hf hk hkn (hitems i hi) hfree hloop
    exact ⟨g r, s', hrun, hloop'⟩
  have hbad : ∀ i ∈ items, ∀ k < o.limit, ∀ s, Loop x db o k s → o.Blocked db i →
      ∃ s', f (i, k) s = (.error e, s') := by
    intro i hi k hkn s hloop hb
    exact ⟨s, hnone i k s s (turn_blocked ho hkn (hitems i hi) hb hloop)⟩
  obtain ⟨s, hrun⟩ := Action.forEach_zipIdx_error hgood hbad hblocked 0 db
    (by rw [Nat.zero_add]; exact hlength) (Loop.start hwf)
  exact ⟨s, hrun⟩

end Sound

end Offers

end EmbeddedAlerts
