import EmbeddedAlerts.PageHistory

/-!
# When a page was seen

Both statements of `upsert_page_revision` write `last_seen_at`, and the second writes
`latest_revision_id`, with the values of the call at hand; neither looks at what is
stored.  So the page is as the call that arrived last has left it, whatever the
`fetched_at` of the calls before.

`observation_times_follow_arrival`: **the page was first seen at the call that arrived
first, and last seen at the call that arrived last.**  If calls arrive in the order of
their `fetched_at`, the last one is also the newest.  If they do not, `last_seen_at` can
fall, also below `first_seen_at` (`observation_times_fall`).

A `fetched_at` has nanoseconds and the columns have microseconds, so two calls less than
a microsecond apart may be stored with one time.
-/

namespace EmbeddedAlerts

open Sql

variable {x : Platform} {db d : Db} {log : List (ReverseIngest × Db)}

/-- The last call of a list that arrives in order is the newest. -/
theorem fetchedAt_le_of_pairwise {calls : List ReverseIngest} {last : ReverseIngest}
    (h : calls.Pairwise fun a b => a.request.fetchedAt ≤ b.request.fetchedAt)
    (hlast : calls.getLast? = some last) : ∀ c ∈ calls, c.fetchedAt ≤ last.fetchedAt := by
  obtain ⟨before, rfl⟩ := List.getLast?_eq_some_iff.mp hlast
  rw [List.pairwise_append] at h
  refine forall_mem_append_singleton (fun c hc => ?_) le_rfl
  exact DateTime.timestamptz_mono (h.2.2 c hc last (List.mem_singleton_self last))

/-- What one more call does to the times of a page. -/
theorem ReverseIngest.Stores.times (hwf : Wf x db) {c : ReverseIngest}
    {wire : ReverseMatch.PageWire} (h : c.Stores x db wire d) {p q : PageRow} (hp : p ∈ db.pages)
    (hq : q ∈ d.pages) (hid : q.id = p.id) :
    q.firstSeenAt = p.firstSeenAt ∧
      q.lastSeenAt = if c.Names p then c.fetchedAt else p.lastSeenAt := by
  have hpoint : ∀ {r : PageRow} {v : Uuid}, r ∈ db.pages → c.Names r →
      q ∈ db.pages.map (c.pointAt r.id v) → q.firstSeenAt = p.firstSeenAt ∧
        q.lastSeenAt = if c.Names p then c.fetchedAt else p.lastSeenAt := by
    intro r v hr hnames hq
    obtain ⟨t, ht, rfl⟩ := List.mem_map.mp hq
    obtain rfl := hwf.valid.page_eq ht hp ((c.pointAt_same _ _ t).id.symm.trans hid)
    by_cases htr : t.id = r.id
    · obtain rfl := hwf.valid.page_eq ht hr htr
      rw [ReverseIngest.pointAt, if_pos rfl, if_pos hnames]
      exact ⟨rfl, rfl⟩
    · have hother : ¬ c.Names t := by
        intro hnamest
        have heq : t = r := hwf.valid.page_eq_of_url ht hr (decide_eq_true
          ⟨hnamest.1.trans hnames.1.symm, hnamest.2.1.trans hnames.2.1.symm,
            hnamest.2.2.trans hnames.2.2.symm⟩)
        exact htr (congrArg PageRow.id heq)
      rw [ReverseIngest.pointAt, if_neg htr, if_neg hother]
      exact ⟨rfl, rfl⟩
  cases h with
  | revisit page names => exact hpoint page names hq
  | revise page names => exact hpoint page names hq
  | discover new freshPage =>
    rcases List.mem_append.mp hq with hq | hq
    · obtain rfl := hwf.valid.page_eq hq hp hid
      rw [if_neg (new q hp)]
      exact ⟨rfl, rfl⟩
    · rw [List.mem_singleton.mp hq] at hid
      exact absurd hid.symm (freshPage p hp)

/-- **The times of a page follow the order of arrival.**  In every state of every run:

* a page was first seen at the first call that succeeded for it, and last seen at the
  last, whose content it points at; if these calls arrived in the order of their
  `fetched_at`, it was not last seen before it was first seen, and the last is the newest;
* one more call leaves `first_seen_at` alone, and lowers `last_seen_at` exactly if it is
  about the page and its `fetched_at` is stored as an earlier time;
* in another run of the same calls, with `fetched_at` all stored as different times, the
  page ends with the same `last_seen_at` exactly if the two runs end with the same call
  for it, and then with the same content. -/
theorem observation_times_follow_arrival (hx : x.Lawful) (h : PageRun x log db) :
    (∀ p ∈ db.pages, ∃ first last, (observed x log p).head? = some first ∧
      (observed x log p).getLast? = some last ∧ p.firstSeenAt = first.fetchedAt ∧
      p.lastSeenAt = last.fetchedAt ∧
      (∃ v ∈ db.pageRevisions, p.latestRevisionId = some v.id ∧ v.pageId = p.id ∧
        v.contentSha256 = last.contentSha256 x) ∧
      ((observed x log p).Pairwise (fun a b => a.request.fetchedAt ≤ b.request.fetchedAt) →
        p.firstSeenAt ≤ p.lastSeenAt ∧
        ∀ c ∈ observed x log p, c.fetchedAt ≤ p.lastSeenAt)) ∧
    (∀ (c : ReverseIngest) wire d, c.store x db = (.ok wire, d) →
      ∀ p ∈ db.pages, ∀ q ∈ d.pages, q.id = p.id →
        q.firstSeenAt = p.firstSeenAt ∧
        (q.lastSeenAt < p.lastSeenAt ↔ c.Names p ∧ c.fetchedAt < p.lastSeenAt)) ∧
    ∀ log' db', PageRun x log' db' → ∀ p ∈ db.pages, ∀ q ∈ db'.pages,
      (observed x log p).Perm (observed x log' q) →
      (observed x log p).Pairwise (fun a b => a.fetchedAt ≠ b.fetchedAt) →
      (p.lastSeenAt = q.lastSeenAt ↔
        (observed x log p).getLast? = (observed x log' q).getLast?) ∧
      (p.lastSeenAt = q.lastSeenAt → ∃ v ∈ db.pageRevisions, ∃ w ∈ db'.pageRevisions,
        p.latestRevisionId = some v.id ∧ q.latestRevisionId = some w.id ∧
        v.contentSha256 = w.contentSha256) := by
  have hhistory := h.history hx
  refine ⟨fun p hp => ?_, fun c wire d hok p hp q hq hid => ?_, ?_⟩
  · obtain ⟨first, hfirst, hfirstSeen⟩ := (hhistory.pages p hp).first
    obtain ⟨last, hlast, hlastSeen, v, hv, hlatest, hpage, -, hcontent⟩ :=
      (hhistory.pages p hp).last
    refine ⟨first, last, hfirst, hlast, hfirstSeen, hlastSeen, ⟨v, hv, hlatest, hpage, hcontent⟩, ?_⟩
    intro hordered
    have hnewest := fetchedAt_le_of_pairwise hordered hlast
    rw [hfirstSeen, hlastSeen]
    exact ⟨hnewest first (List.mem_of_mem_head? hfirst), hnewest⟩
  · obtain ⟨hfirst, hlast⟩ := (ReverseIngest.store_ok hhistory.wf hok).times hhistory.wf hp hq hid
    refine ⟨hfirst, ?_⟩
    rw [hlast]
    split_ifs with hnames
    · exact ⟨fun hlt => ⟨hnames, hlt⟩, fun hlt => hlt.2⟩
    · exact ⟨fun hlt => absurd hlt (lt_irrefl _), fun hlt => absurd hlt.1 hnames⟩
  · intro log' db' h' p hp q hq hperm hdistinct
    obtain ⟨last, hlast, hlastSeen, v, hv, hlatest, -, -, hcontent⟩ := (hhistory.pages p hp).last
    obtain ⟨last', hlast', hlastSeen', w, hw, hlatest', -, -, hcontent'⟩ :=
      ((h'.history hx).pages q hq).last
    -- with all times different, a time belongs to one call
    have hsame : p.lastSeenAt = q.lastSeenAt ↔ last = last' := by
      rw [hlastSeen, hlastSeen']
      refine ⟨fun htimes => ?_, fun heq => by rw [heq]⟩
      have hmem : last ∈ observed x log p := List.mem_of_getLast? hlast
      have hmem' : last' ∈ observed x log p := hperm.mem_iff.mpr (List.mem_of_getLast? hlast')
      have hsymm : Std.Symm fun a b : ReverseIngest => a.fetchedAt ≠ b.fetchedAt :=
        ⟨fun _ _ hne => hne.symm⟩
      by_contra hne
      exact hdistinct.forall hmem hmem' hne htimes
    refine ⟨?_, fun htimes => ⟨v, hv, w, hw, hlatest, hlatest', ?_⟩⟩
    · rw [hsame, hlast, hlast', Option.some.injEq]
    · rw [hcontent, hcontent', hsame.mp htimes]

/-! ### A scenario -/

namespace Scenario

/-- Two fetches of the page; the one that arrives last is the older. -/
def outOfOrder : List ReverseIngest := [fetch 50 "alpha" 5000, fetch 60 "beta" 3000]

def inOrder : List ReverseIngest := [fetch 60 "beta" 3000, fetch 50 "alpha" 5000]

/-- What a reader of the pages sees of their times. -/
def times (db : Db) : List (Timestamp × Timestamp × Option Uuid) :=
  db.pages.map fun p => (p.firstSeenAt, p.lastSeenAt, p.latestRevisionId)

end Scenario

open Scenario in
/-- **The times of a page can fall.**  After the newer fetch the page was last seen at
`5`; after the older one, which arrives later, it was last seen at `3`, before it was
first seen, and points at the older content.  In the other order it ends at `5` and the
newer content. -/
theorem observation_times_fall :
    PageRun threeContents ([] ++ fetches threeContents outOfOrder sourced)
      (afterFetches threeContents outOfOrder sourced) ∧
    PageRun threeContents ([] ++ fetches threeContents inOrder sourced)
      (afterFetches threeContents inOrder sourced) ∧
    times (afterFetches threeContents (outOfOrder.take 1) sourced) = [(5, 5, some 51)] ∧
    times (afterFetches threeContents outOfOrder sourced) = [(5, 3, some 61)] ∧
    times (afterFetches threeContents inOrder sourced) = [(3, 5, some 51)] := by
  refine ⟨pageRun_fetches outOfOrder pageRun_sourced, pageRun_fetches inOrder pageRun_sourced,
    ?_, ?_, ?_⟩
  all_goals decide +kernel

open Scenario in
theorem observation_times_follow_arrival_sample :
    (afterFetches threeContents outOfOrder sourced).pages.length = 1 ∧
    ∀ p ∈ (afterFetches threeContents outOfOrder sourced).pages, ∃ last,
      (observed threeContents ([] ++ fetches threeContents outOfOrder sourced) p).getLast?
        = some last ∧ p.lastSeenAt = last.fetchedAt := by
  refine ⟨by decide, fun p hp => ?_⟩
  obtain ⟨-, last, -, hlast, -, hseen, -⟩ := (observation_times_follow_arrival
    (Platform.sampleWith_lawful _) (pageRun_fetches outOfOrder pageRun_sourced)).1 p hp
  exact ⟨last, hlast, hseen⟩

end EmbeddedAlerts
