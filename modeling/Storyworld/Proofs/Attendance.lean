import Mathlib.Data.List.MinMax
import Storyworld.Proofs.Tiers

/-! The tiers as a cache. Beside the cast stands a record of who is present, with the time at which
each was last affirmed. It knows no order of places: whoever has to leave a tier is the one with the
earliest time. The cast gives the same replies to any calls, and each tier lists by time those that
the record has there. -/

namespace Storyworld

/-- Somebody who is present, and when the name last entered. -/
structure Presence where
  name : Text
  tier : Tier
  time : Nat

/-- Who is present, and the time. -/
structure Attendance where
  present : List Presence
  now : Nat

/-- A call to enter a tier under some limits, or to leave. -/
inductive Cast.Move where
  | enter (name : Text) (tier : Tier) (limits : CharacterLimits)
  | leave (name : Text)

/-- The name that gave up its place, if any, or whether the one who left had been there. -/
inductive Cast.Reply where
  | evicted (name : Option Text)
  | left (wasPresent : Bool)
deriving DecidableEq

open Cast (Move Reply)

def Cast.move (c : Cast) : Move → Reply × Cast
  | .enter name tier limits => ((c.enter name tier limits).map .evicted id)
  | .leave name => ((c.leave name).map .left id)

/-- The replies to some calls, one after another, and what they lead to. -/
def replies {α : Type} (move : α → Move → Reply × α) : α → List Move → List Reply × α
  | a, [] => ([], a)
  | a, m :: ms => ((replies move (move a m).2 ms).map ((move a m).1 :: ·) id)

namespace Attendance

def empty : Attendance := ⟨[], 0⟩

def IsPresent (a : Attendance) (name : Text) : Prop := ∃ p ∈ a.present, p.name = name

def IsIn (a : Attendance) (name : Text) (tier : Tier) : Prop :=
  ∃ p ∈ a.present, p.name = name ∧ p.tier = tier

instance (a : Attendance) (name : Text) : Decidable (a.IsPresent name) :=
  inferInstanceAs (Decidable (∃ p ∈ a.present, p.name = name))

instance (a : Attendance) (name : Text) (tier : Tier) : Decidable (a.IsIn name tier) :=
  inferInstanceAs (Decidable (∃ p ∈ a.present, p.name = name ∧ p.tier = tier))

def inTier (a : Attendance) (tier : Tier) : List Presence := a.present.filter (·.tier = tier)

def erase (a : Attendance) (name : Text) : Attendance :=
  { a with present := a.present.filter (·.name ≠ name) }

/-- The name with the earliest time of a tier, if beside its other members there is no room for a
newcomer. -/
def evicted? (a : Attendance) (name : Text) (tier : Tier) (limit : Nat) : Option Text :=
  let others := (a.erase name).inTier tier
  if ¬a.IsIn name tier ∧ limit ≤ others.length then (others.argmin (·.time)).map (·.name) else none

/-- The name has the tier from now on, wherever it was. -/
def seat (a : Attendance) (name : Text) (tier : Tier) : Attendance :=
  ⟨⟨name, tier, a.now⟩ :: (a.erase name).present, a.now + 1⟩

/-- Nothing happens where the tier takes nobody in. Else one may have to leave for the name. -/
def enter (a : Attendance) (name : Text) (tier : Tier) (limits : CharacterLimits) :
    Option Text × Attendance :=
  if limits.limit tier = 0 then (none, a)
  else
    let gone := a.evicted? name tier (limits.limit tier)
    (gone, (gone.elim a a.erase).seat name tier)

def move (a : Attendance) : Move → Reply × Attendance
  | .enter name tier limits => (a.enter name tier limits).map .evicted id
  | .leave name => (.left (a.IsPresent name), a.erase name)

/-- The names in a tier by the times at which they entered. -/
def byTime (a : Attendance) (tier : Tier) : List Text :=
  ((a.inTier tier).mergeSort (·.time ≤ ·.time)).map (·.name)

/-- All times are past, no two are the same, and no name comes twice. -/
structure Chronological (a : Attendance) : Prop where
  past : ∀ p ∈ a.present, p.time < a.now
  latest : a.present.Pairwise fun p q => q.time < p.time
  names : (a.present.map (·.name)).Nodup

variable {a : Attendance} {c : Cast} {name : Text} {tier : Tier} {ps : List Presence}

/-- Of those who are listed from the latest to the earliest, the last is the earliest. -/
theorem argmin_time (h : ps.Pairwise fun p q => q.time < p.time) :
    ps.argmin (·.time) = ps.getLast? := by
  induction ps using List.reverseRecOn with
  | nil => rfl
  | append_singleton ps p _ =>
    have hp : ∀ q ∈ ps, p.time < q.time := by
      simpa using (List.pairwise_append.mp h).2.2
    rw [List.argmin_concat, List.getLast?_concat]
    cases hmin : ps.argmin (·.time) with
    | none => rfl
    | some q => exact if_pos (hp q (List.argmin_mem hmin))

theorem mergeSort_time (h : ps.Pairwise fun p q => q.time < p.time) :
    ps.mergeSort (·.time ≤ ·.time) = ps.reverse := by
  have hmerged : (ps.mergeSort (·.time ≤ ·.time)).Pairwise fun p q =>
      decide (p.time ≤ q.time) = true :=
    List.pairwise_mergeSort (by simpa using fun _ _ _ => Nat.le_trans)
      (by simpa using fun _ _ => Nat.le_total _ _) ps
  have hordered : (ps.mergeSort (·.time ≤ ·.time)).Pairwise fun p q => p.time ≤ q.time := by
    simpa using hmerged
  have hreverse : ps.reverse.Pairwise fun p q => p.time ≤ q.time :=
    List.pairwise_reverse.mpr (h.imp Nat.le_of_lt)
  have htimes : (ps.map (·.time)).Nodup := List.pairwise_map.mpr (h.imp Nat.ne_of_gt)
  have hperm := (List.mergeSort_perm ps (·.time ≤ ·.time)).trans (List.reverse_perm ps).symm
  refine hperm.eq_of_pairwise (fun p q hp hq hpq hqp => ?_) hordered hreverse
  exact List.inj_on_of_nodup_map htimes (List.mem_mergeSort.mp hp) (List.mem_reverse.mp hq)
    (Nat.le_antisymm hpq hqp)

theorem mem_byTime : name ∈ a.byTime tier ↔ a.IsIn name tier := by
  simp only [byTime, inTier, List.mem_map, List.mem_mergeSort, List.mem_filter, decide_eq_true_eq,
    IsIn, and_assoc, and_comm (a := (_ : Presence).tier = tier)]

namespace Chronological

theorem erase (h : a.Chronological) (name : Text) : (a.erase name).Chronological where
  past p hp := h.past p (List.mem_of_mem_filter hp)
  latest := h.latest.sublist List.filter_sublist
  names := h.names.sublist (List.filter_sublist.map _)

theorem byTime_eq (h : a.Chronological) (tier : Tier) :
    a.byTime tier = ((a.inTier tier).map (·.name)).reverse := by
  have hlatest : (a.inTier tier).Pairwise fun p q => q.time < p.time :=
    h.latest.sublist List.filter_sublist
  rw [byTime, mergeSort_time hlatest, List.map_reverse]

theorem nodup_byTime (h : a.Chronological) (tier : Tier) : (a.byTime tier).Nodup := by
  rw [h.byTime_eq, List.nodup_reverse]
  exact h.names.sublist (List.filter_sublist.map _)

theorem byTime_erase (h : a.Chronological) (name : Text) (tier : Tier) :
    (a.erase name).byTime tier = (a.byTime tier).erase name := by
  have hcomm : (a.erase name).inTier tier = (a.inTier tier).filter (·.name ≠ name) :=
    List.filter_comm _ _ _
  rw [(h.nodup_byTime tier).erase_eq_filter, h.byTime_eq, (h.erase name).byTime_eq, hcomm,
    List.filter_reverse, List.filter_map]
  refine congrArg (fun ps : List Presence => (ps.map (·.name)).reverse) ?_
  exact List.filter_congr fun p _ => by simp [bne, beq_eq_decide]

/-- Who enters has the latest time of all. -/
theorem seat (h : a.Chronological) (name : Text) (tier : Tier) :
    (a.seat name tier).Chronological where
  past := by
    refine List.forall_mem_cons.mpr ⟨Nat.lt_succ_self _, fun p hp => ?_⟩
    exact Nat.lt_succ_of_lt ((h.erase name).past p hp)
  latest := List.pairwise_cons.mpr ⟨(h.erase name).past, (h.erase name).latest⟩
  names := by
    refine List.nodup_cons.mpr ⟨fun hself => ?_, (h.erase name).names⟩
    obtain ⟨p, hp, hname⟩ := List.mem_map.mp hself
    simpa [hname] using List.of_mem_filter hp

theorem byTime_seat (h : a.Chronological) (name : Text) (tier t : Tier) :
    (a.seat name tier).byTime t =
      if tier = t then (a.byTime t).erase name ++ [name] else (a.byTime t).erase name := by
  rw [(h.seat name tier).byTime_eq, ← h.byTime_erase, (h.erase name).byTime_eq]
  by_cases ht : tier = t <;> simp [Attendance.seat, inTier, ht]

end Chronological

/-- The record is in order, and every tier of the cast lists those that it has there by time. -/
structure Mirrors (c : Cast) (a : Attendance) : Prop where
  chronological : a.Chronological
  members : ∀ t, c.members t = a.byTime t

namespace Mirrors

theorem empty : Mirrors Cast.empty Attendance.empty where
  chronological := by constructor <;> simp [Attendance.empty]
  members t := by cases t <;> simp [Cast.empty, Cast.members, byTime, inTier, Attendance.empty]

theorem mem_members (h : Mirrors c a) (t : Tier) : name ∈ c.members t ↔ a.IsIn name t := by
  rw [h.members, mem_byTime]

theorem apart (h : Mirrors c a) : c.Apart := by
  intro t u name ht hu
  obtain ⟨p, hp, hname, rfl⟩ := (h.mem_members t).mp ht
  obtain ⟨q, hq, hsame, rfl⟩ := (h.mem_members u).mp hu
  rw [List.inj_on_of_nodup_map h.chronological.names hp hq (hname.trans hsame.symm)]

theorem tierOf?_eq_some_iff (h : Mirrors c a) : c.tierOf? name = some tier ↔ a.IsIn name tier := by
  rw [h.apart.tierOf?_eq_some_iff, h.mem_members]

theorem tierOf?_isSome_iff (h : Mirrors c a) : (c.tierOf? name).isSome ↔ a.IsPresent name := by
  rw [Option.isSome_iff_exists]
  simp only [h.tierOf?_eq_some_iff]
  constructor
  · rintro ⟨t, p, hp, hname, -⟩
    exact ⟨p, hp, hname⟩
  · rintro ⟨p, hp, hname⟩
    exact ⟨p.tier, p, hp, hname, rfl⟩

theorem remove (h : Mirrors c a) (name : Text) : Mirrors (c.remove name) (a.erase name) where
  chronological := h.chronological.erase name
  members t := by rw [h.apart.members_remove, h.members, h.chronological.byTime_erase]

/-- The first of the others in a tier is the one with the earliest time. -/
theorem evicted?_eq (h : Mirrors c a) (name : Text) (tier : Tier) (limit : Nat) :
    a.evicted? name tier limit =
      if c.tierOf? name ≠ some tier ∧ limit ≤ ((c.members tier).erase name).length
      then ((c.members tier).erase name).head? else none := by
  have herase := h.chronological.erase name
  have hlatest : ((a.erase name).inTier tier).Pairwise fun p q => q.time < p.time :=
    herase.latest.sublist List.filter_sublist
  rw [h.members, ← h.chronological.byTime_erase, herase.byTime_eq, List.head?_reverse,
    List.getLast?_map, List.length_reverse, List.length_map, ← argmin_time hlatest]
  exact if_congr (and_congr_left' (not_congr h.tierOf?_eq_some_iff.symm)) rfl rfl

/-- The names beside the newcomer, once the one with the earliest time has left if it has to. -/
theorem byTime_stayed (h : Mirrors c a) (name : Text) (tier : Tier) (limit : Nat) (t : Tier) :
    (((a.evicted? name tier limit).elim a a.erase).byTime t).erase name =
      if tier = t then c.stayers name tier limit else (c.members t).erase name := by
  have hgone := h.evicted?_eq name tier limit
  simp only [Cast.stayers]
  split at hgone
  · rename_i hfull
    rw [if_pos hfull, hgone]
    cases hothers : (c.members tier).erase name with
    | nil =>
      rw [List.head?_nil, Option.elim_none, ← h.members]
      split
      · rename_i ht
        rw [← ht, hothers, List.tail_nil]
      · rfl
    | cons g others =>
      rw [List.head?_cons, Option.elim_some, h.chronological.byTime_erase, ← h.members,
        List.erase_comm]
      split
      · rename_i ht
        rw [← ht, hothers, List.erase_cons_head, List.tail_cons]
      · rename_i hne
        have hg : g ∈ c.members tier := List.mem_of_mem_erase (hothers ▸ List.mem_cons_self)
        refine List.erase_of_not_mem fun hmem => hne ?_
        exact h.apart tier t g hg (List.mem_of_mem_erase hmem)
  · rename_i hroom
    rw [if_neg hroom, hgone, Option.elim_none, ← h.members]
    split
    · rename_i ht
      rw [ht]
    · rfl

theorem enter (h : Mirrors c a) (name : Text) (tier : Tier) (limits : CharacterLimits) :
    (c.enter name tier limits).1 = (a.enter name tier limits).1 ∧
      Mirrors (c.enter name tier limits).2 (a.enter name tier limits).2 := by
  by_cases hlimit : limits.limit tier = 0
  · rw [Cast.enter_of_limit_eq_zero hlimit, Attendance.enter, if_pos hlimit]
    exact ⟨rfl, h⟩
  · have hstayed : ((a.evicted? name tier (limits.limit tier)).elim a a.erase).Chronological := by
      cases a.evicted? name tier (limits.limit tier) with
      | none => exact h.chronological
      | some g => exact h.chronological.erase g
    rw [Attendance.enter, if_neg hlimit]
    refine ⟨?_, hstayed.seat name tier, fun t => ?_⟩
    · rw [h.apart.enter_fst name hlimit, h.evicted?_eq]
    · rw [h.apart.members_enter name hlimit, hstayed.byTime_seat, h.byTime_stayed]
      split <;> rfl

/-- A call gets the same reply from both, and they agree afterwards. -/
theorem move (h : Mirrors c a) (m : Move) :
    (c.move m).1 = (a.move m).1 ∧ Mirrors (c.move m).2 (a.move m).2 := by
  cases m with
  | enter name tier limits =>
    obtain ⟨hgone, hnext⟩ := h.enter name tier limits
    exact ⟨congrArg Reply.evicted hgone, hnext⟩
  | leave name =>
    refine ⟨congrArg Reply.left ?_, h.remove name⟩
    exact Bool.eq_iff_iff.mpr (h.tierOf?_isSome_iff.trans decide_eq_true_iff.symm)

theorem replies (h : Mirrors c a) (ms : List Move) :
    (replies Cast.move c ms).1 = (replies Attendance.move a ms).1 ∧
      Mirrors (replies Cast.move c ms).2 (replies Attendance.move a ms).2 := by
  induction ms generalizing c a with
  | nil => exact ⟨rfl, h⟩
  | cons m ms ih =>
    obtain ⟨hreply, hnext⟩ := h.move m
    obtain ⟨hreplies, hlast⟩ := ih hnext
    exact ⟨congrArg₂ List.cons hreply hreplies, hlast⟩

end Mirrors

end Attendance

/-- After any calls, whatever their limits, the cast has given the replies that the record gives, and
each tier lists its members from the one that entered longest ago. -/
theorem Cast.replies_attendance (ms : List Move) :
    (replies Cast.move .empty ms).1 = (replies Attendance.move .empty ms).1 ∧
      (replies Attendance.move .empty ms).2.Chronological ∧
      ∀ t, (replies Cast.move .empty ms).2.members t =
        (replies Attendance.move .empty ms).2.byTime t := by
  obtain ⟨hreplies, hlast⟩ := Attendance.Mirrors.empty.replies ms
  exact ⟨hreplies, hlast.chronological, hlast.members⟩

/-- Whoever is affirmed again does not leave next, and a tier can become smaller. -/
example :
    let two : CharacterLimits := ⟨2, 2, 2⟩
    let one : CharacterLimits := ⟨1, 1, 1⟩
    (replies Cast.move .empty [.enter "Ann" .focus two, .enter "Bob" .focus two,
      .enter "Ann" .focus two, .enter "Cleo" .focus two, .enter "Dan" .focus one, .leave "Ann"]).1 =
      [.evicted none, .evicted none, .evicted none, .evicted "Bob", .evicted "Ann", .left false] := by
  decide

end Storyworld
