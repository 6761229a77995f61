import Mathlib.Data.List.Basic
import Mathlib.Data.List.Infix
import Mathlib.Data.List.Range
import Mathlib.Data.List.Sort
import Mathlib.Data.List.Perm.Subperm
import Mathlib.Logic.Function.Basic

/-!
# Broadcast channels

A value that is sent is seen by every receiver, in the order of sending.  The channel
keeps a bounded number of values: a receiver that falls behind is told how many values it
has missed, and goes on with the oldest one that is kept.

`Channel` are the operations and `Channel.Documented` is what they do, in terms of the log
of all values sent and of a cursor for each receiver.  `Log.channel` is one such channel.

`Reader` is what a receiver has done so far: where it began, where it is and the positions
it has received.  It has read a part of the log in its order (`Reader.Good.read_sublist`).
If it has missed nothing since some position, what it has read ends with the log from that
position on (`Reader.Good.read_from`).
-/

namespace Broadcast

/-! ### Channels -/

/-- What a receiver gets. -/
inductive Received (α : Type) where
  | value (a : α)
  | lagged (skipped : ℕ)
deriving DecidableEq

structure Channel (α κ : Type) where
  State : Type
  empty : State
  send : State → α → State
  subscribe : State → κ → State
  /-- `none` if there is nothing to receive. -/
  recv : State → κ → Option (Received α) × State
  drop : State → κ → State

variable {α κ : Type} [DecidableEq κ]

/-- The log of a channel and the cursors of its receivers. -/
structure Channel.Documented (c : Channel α κ) (capacity : ℕ) where
  sent : c.State → List α
  cursor : c.State → κ → Option ℕ
  sent_empty : sent c.empty = []
  sent_send : ∀ s a, sent (c.send s a) = sent s ++ [a]
  cursor_send : ∀ s a k, cursor (c.send s a) k = cursor s k
  sent_subscribe : ∀ s k, sent (c.subscribe s k) = sent s
  cursor_subscribe : ∀ s k l,
    cursor (c.subscribe s k) l = if l = k then some (sent s).length else cursor s l
  sent_drop : ∀ s k, sent (c.drop s k) = sent s
  cursor_drop : ∀ s k l, l ≠ k → cursor (c.drop s k) l = cursor s l
  sent_recv : ∀ s k, sent (c.recv s k).2 = sent s
  cursor_recv : ∀ s k l, l ≠ k → cursor (c.recv s k).2 l = cursor s l
  recv_value : ∀ s k n a, cursor s k = some n → (sent s).length ≤ n + capacity →
    (sent s)[n]? = some a →
    (c.recv s k).1 = some (.value a) ∧ cursor (c.recv s k).2 k = some (n + 1)
  recv_lagged : ∀ s k n, cursor s k = some n → n + capacity < (sent s).length →
    (c.recv s k).1 = some (.lagged ((sent s).length - capacity - n)) ∧
      cursor (c.recv s k).2 k = some ((sent s).length - capacity)
  recv_none : ∀ s k n, cursor s k = some n → n = (sent s).length →
    (c.recv s k).1 = none ∧ cursor (c.recv s k).2 k = some n

/-- **Receiving has three outcomes**: the next value, a gap, or nothing. -/
theorem Channel.Documented.recv_cases {c : Channel α κ} {capacity : ℕ}
    (d : c.Documented capacity) {s : c.State} {k : κ} {n : ℕ} (hn : d.cursor s k = some n)
    (hle : n ≤ (d.sent s).length) :
    (∃ a, (d.sent s).length ≤ n + capacity ∧ (d.sent s)[n]? = some a ∧
      (c.recv s k).1 = some (.value a) ∧ d.cursor (c.recv s k).2 k = some (n + 1)) ∨
    (∃ m, 0 < m ∧ n + m + capacity = (d.sent s).length ∧ (c.recv s k).1 = some (.lagged m) ∧
      d.cursor (c.recv s k).2 k = some (n + m)) ∨
    (n = (d.sent s).length ∧ (c.recv s k).1 = none ∧ d.cursor (c.recv s k).2 k = some n) := by
  by_cases hlag : n + capacity < (d.sent s).length
  · obtain ⟨hrecv, hcursor⟩ := d.recv_lagged s k n hn hlag
    refine Or.inr (Or.inl ⟨(d.sent s).length - capacity - n, by omega, by omega, hrecv, ?_⟩)
    rw [hcursor]
    congr 1
    omega
  · by_cases hend : n = (d.sent s).length
    · exact Or.inr (Or.inr ⟨hend, d.recv_none s k n hn hend⟩)
    · have hlt : n < (d.sent s).length := by omega
      have hget : (d.sent s)[n]? = some (d.sent s)[n] := List.getElem?_eq_getElem hlt
      have hkept : (d.sent s).length ≤ n + capacity := by omega
      exact Or.inl ⟨_, hkept, hget, d.recv_value s k n _ hn hkept hget⟩

/-! ### A channel -/

namespace Log

/-- All values sent, and the cursors. -/
structure State (α κ : Type) where
  sent : List α
  cursor : κ → Option ℕ

/-- The next value at a cursor, or how far it is behind. -/
def next (capacity : ℕ) (sent : List α) (n : ℕ) : Option (Received α) × ℕ :=
  if n + capacity < sent.length then
    (some (.lagged (sent.length - capacity - n)), sent.length - capacity)
  else match sent[n]? with
    | some a => (some (.value a), n + 1)
    | none => (none, n)

/-- A channel that is its log. -/
def channel (α κ : Type) [DecidableEq κ] (capacity : ℕ) : Channel α κ where
  State := State α κ
  empty := ⟨[], fun _ => none⟩
  send s a := { s with sent := s.sent ++ [a] }
  subscribe s k := { s with cursor := Function.update s.cursor k (some s.sent.length) }
  recv s k := match s.cursor k with
    | some n => ((next capacity s.sent n).1,
        { s with cursor := Function.update s.cursor k (some (next capacity s.sent n).2) })
    | none => (none, s)
  drop s k := { s with cursor := Function.update s.cursor k none }

theorem recv_of_cursor {capacity : ℕ} {s : State α κ} {k : κ} {n : ℕ} (h : s.cursor k = some n) :
    (channel α κ capacity).recv s k = ((next capacity s.sent n).1,
      { s with cursor := Function.update s.cursor k (some (next capacity s.sent n).2) }) := by
  simp only [channel, h]

def documented (α κ : Type) [DecidableEq κ] (capacity : ℕ) :
    (channel α κ capacity).Documented capacity where
  sent := State.sent
  cursor := State.cursor
  sent_empty := rfl
  sent_send _ _ := rfl
  cursor_send _ _ _ := rfl
  sent_subscribe _ _ := rfl
  cursor_subscribe s k l := by
    simp only [channel, Function.update_apply]
  sent_drop _ _ := rfl
  cursor_drop s k l hne := Function.update_of_ne hne _ _
  sent_recv s k := by
    cases h : State.cursor s k with
    | none => simp only [channel, h]
    | some n => rw [recv_of_cursor h]
  cursor_recv s k l hne := by
    cases h : State.cursor s k with
    | none => simp only [channel, h]
    | some n =>
      rw [recv_of_cursor h]
      exact Function.update_of_ne hne _ _
  recv_value s k n a hn hle ha := by
    have hnext : next capacity s.sent n = (some (.value a), n + 1) := by
      rw [next, if_neg (not_lt.mpr hle), ha]
    rw [recv_of_cursor hn, hnext]
    exact ⟨rfl, Function.update_self k _ _⟩
  recv_lagged s k n hn hlt := by
    have hnext : next capacity s.sent n
        = (some (.lagged (s.sent.length - capacity - n)), s.sent.length - capacity) := by
      rw [next, if_pos hlt]
    rw [recv_of_cursor hn, hnext]
    exact ⟨rfl, Function.update_self k _ _⟩
  recv_none s k n hn hend := by
    have hnext : next capacity s.sent n = (none, n) := by
      have hget : s.sent[n]? = none := List.getElem?_eq_none (Nat.le_of_eq hend.symm)
      rw [next, if_neg (by omega), hget]
    rw [recv_of_cursor hn, hnext]
    exact ⟨rfl, Function.update_self k _ _⟩

end Log

/-! ### Readers -/

/-- What a receiver has done: where it began, the position it is to receive next and the
positions it has received. -/
structure Reader where
  start : ℕ
  next : ℕ
  received : List ℕ
deriving DecidableEq, Repr

namespace Reader

def begin (n : ℕ) : Reader := ⟨n, n, []⟩

/-- Receive the next position. -/
def take (r : Reader) : Reader :=
  { r with next := r.next + 1, received := r.received ++ [r.next] }

/-- Miss some positions. -/
def skip (r : Reader) (n : ℕ) : Reader := { r with next := r.next + n }

/-- The values received. -/
def read {α : Type} (r : Reader) (log : List α) : List α := r.received.filterMap (log[·]?)

/-- The positions received are in order, and between the beginning and the next one. -/
structure Good (r : Reader) : Prop where
  start_le : r.start ≤ r.next
  increasing : r.received.Pairwise (· < ·)
  bounds : ∀ p ∈ r.received, r.start ≤ p ∧ p < r.next

/-- All positions from `m` on were received, up to the next one. -/
def Since (r : Reader) (m : ℕ) : Prop := ∀ p, r.start ≤ p → m ≤ p → p < r.next → p ∈ r.received

variable {α : Type} {r : Reader} {log : List α} {a : α} {m : ℕ}

theorem good_begin (n : ℕ) : (begin n).Good where
  start_le := le_rfl
  increasing := List.Pairwise.nil
  bounds _ hp := absurd hp List.not_mem_nil

theorem since_begin (n m : ℕ) : (begin n).Since m := by
  intro p hstart _ hlt
  have hle : n ≤ p := hstart
  have hlt : p < n := hlt
  omega

theorem Good.take (h : r.Good) : r.take.Good where
  start_le := Nat.le_succ_of_le h.start_le
  increasing := by
    refine List.pairwise_append.mpr ⟨h.increasing, List.pairwise_singleton _ _, fun p hp q hq => ?_⟩
    rw [List.mem_singleton.mp hq]
    exact (h.bounds p hp).2
  bounds p hp := by
    show r.start ≤ p ∧ p < r.next + 1
    rcases List.mem_append.mp hp with hp | hp
    · have hbounds := h.bounds p hp
      omega
    · have hstart := h.start_le
      rw [List.mem_singleton.mp hp]
      omega

theorem Since.take (h : r.Since m) : r.take.Since m := by
  intro p hstart hm hlt
  have hlt : p < r.next + 1 := hlt
  by_cases heq : p = r.next
  · rw [heq]
    exact List.mem_append_right _ (List.mem_singleton_self _)
  · exact List.mem_append_left _ (h p hstart hm (by omega))

theorem Good.skip (h : r.Good) (n : ℕ) : (r.skip n).Good where
  start_le := Nat.le_trans h.start_le (Nat.le_add_right _ n)
  increasing := h.increasing
  bounds p hp := by
    have hbounds := h.bounds p hp
    show r.start ≤ p ∧ p < r.next + n
    omega

/-- What is missed is before the position that is next. -/
theorem since_skip {n : ℕ} (h : r.next + n ≤ m) : (r.skip n).Since m := by
  intro p _ hm hlt
  have hlt : p < r.next + n := hlt
  omega

theorem Since.mono {m' : ℕ} (h : r.Since m) (hle : m ≤ m') : r.Since m' :=
  fun p hstart hm hlt => h p hstart (Nat.le_trans hle hm) hlt

/-- A value that is sent later changes nothing in what was read. -/
theorem Good.read_append (h : r.Good) (hnext : r.next ≤ log.length) (a : α) :
    r.read (log ++ [a]) = r.read log := by
  refine List.filterMap_congr fun p hp => ?_
  have hbounds := h.bounds p hp
  exact List.getElem?_append_left (by omega)

theorem read_take (h : log[r.next]? = some a) : r.take.read log = r.read log ++ [a] := by
  rw [read, take, List.filterMap_append, List.filterMap_cons_some h, List.filterMap_nil]
  rfl

/-- Positions in increasing order read a part of the log, in its order. -/
theorem filterMap_sublist_drop : ∀ {positions : List ℕ} {n : ℕ}, positions.Pairwise (· < ·) →
    (∀ p ∈ positions, n ≤ p) → (positions.filterMap (log[·]?)).Sublist (log.drop n) := by
  intro positions
  induction positions with
  | nil =>
    intro n _ _
    exact List.nil_sublist _
  | cons p positions ih =>
    intro n hincreasing hbound
    obtain ⟨hfirst, hrest⟩ := List.pairwise_cons.mp hincreasing
    have htail := ih hrest fun q hq => Nat.succ_le_of_lt (hfirst q hq)
    refine List.Sublist.trans ?_ (List.drop_sublist_drop_left log (hbound p List.mem_cons_self))
    cases hp : log[p]? with
    | none =>
      rw [List.filterMap_cons_none hp]
      exact htail.trans (List.drop_sublist_drop_left log (Nat.le_succ p))
    | some a =>
      obtain ⟨hlt, rfl⟩ := List.getElem?_eq_some_iff.mp hp
      rw [List.filterMap_cons_some hp, List.drop_eq_getElem_cons hlt]
      exact htail.cons_cons _

/-- **What is read is a part of the log, in its order.** -/
theorem Good.read_sublist (h : r.Good) (log : List α) : (r.read log).Sublist (log.drop r.start) :=
  filterMap_sublist_drop h.increasing fun p hp => (h.bounds p hp).1

/-- The positions received from `m` on. -/
theorem Good.received_from (h : r.Good) (hsince : r.Since m) (hm : r.start ≤ m) :
    r.received.filter (fun p => decide (m ≤ p)) = List.range' m (r.next - m) := by
  refine (h.increasing.filter _).eq_of_mem_iff (List.pairwise_lt_range' ..) fun p => ?_
  rw [List.mem_filter, decide_eq_true_iff, List.mem_range'_1]
  constructor
  · rintro ⟨hp, hle⟩
    have hbounds := h.bounds p hp
    omega
  · rintro ⟨hle, hlt⟩
    exact ⟨hsince p (by omega) hle (by omega), hle⟩

/-- Those before `m` come first. -/
theorem Good.received_split (h : r.Good) (m : ℕ) :
    r.received = r.received.filter (fun p => decide (p < m)) ++
      r.received.filter (fun p => decide (m ≤ p)) := by
  have hsorted : (r.received.filter (fun p => decide (p < m)) ++
      r.received.filter (fun p => decide (m ≤ p))).Pairwise (· < ·) := by
    refine List.pairwise_append.mpr ⟨h.increasing.filter _, h.increasing.filter _, ?_⟩
    intro p hp q hq
    have hlt := of_decide_eq_true (List.mem_filter.mp hp).2
    have hle := of_decide_eq_true (List.mem_filter.mp hq).2
    omega
  refine h.increasing.eq_of_mem_iff hsorted fun p => ?_
  rw [List.mem_append, List.mem_filter, List.mem_filter, decide_eq_true_iff, decide_eq_true_iff,
    ← and_or_left]
  exact ⟨fun hp => ⟨hp, Nat.lt_or_ge p m⟩, fun hp => hp.1⟩

theorem filterMap_range' (log : List α) : ∀ (m n : ℕ), n + m ≤ log.length →
    (List.range' n m).filterMap (log[·]?) = (log.drop n).take m := by
  intro m
  induction m with
  | zero =>
    intro n _
    simp
  | succ m ih =>
    intro n hle
    have hlt : n < log.length := by omega
    rw [List.range'_succ, List.filterMap_cons_some (List.getElem?_eq_getElem hlt),
      ih (n + 1) (by omega), List.drop_eq_getElem_cons hlt, List.take_succ_cons]

/-- **What was received from `m` on is the end of what was read.** -/
theorem Good.read_from (h : r.Good) (hsince : r.Since m) (hm : r.start ≤ m) (hle : m ≤ r.next)
    (hnext : r.next ≤ log.length) : (log.drop m).take (r.next - m) <:+ r.read log := by
  refine ⟨(r.received.filter fun p => decide (p < m)).filterMap (log[·]?), ?_⟩
  rw [read]
  conv_rhs => rw [h.received_split m]
  rw [List.filterMap_append, h.received_from hsince hm, filterMap_range' log _ _ (by omega)]

/-- **If nothing was missed, everything in between was read.** -/
theorem Good.read_eq (h : r.Good) (hsince : r.Since r.start) (hnext : r.next ≤ log.length) :
    r.read log = (log.drop r.start).take (r.next - r.start) := by
  have hall : r.received = List.range' r.start (r.next - r.start) := by
    rw [← h.received_from hsince le_rfl]
    refine (List.filter_eq_self.mpr fun p hp => ?_).symm
    exact decide_eq_true (h.bounds p hp).1
  have hstart := h.start_le
  rw [read, hall, filterMap_range' log _ _ (by omega)]

end Reader

end Broadcast
