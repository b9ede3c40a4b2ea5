import Mathlib.Data.Int.Order.Basic
import Mathlib.Data.List.Sort
import Mathlib.Data.List.TakeWhile

/-! # Sorted sets

A sorted set gives each of its members a score and lists them by ascending score; members
with the same score are listed in their own order.  The scores are integers here.
-/
namespace QueryCraft

/-- A member with its score. -/
structure Scored (α : Type*) where
  score : Int
  member : α
deriving DecidableEq, Repr

variable {α : Type*} [LinearOrder α]

/-- The order in which members are listed. -/
def Scored.Le (a b : Scored α) : Prop :=
  a.score < b.score ∨ a.score = b.score ∧ a.member ≤ b.member

instance (a b : Scored α) : Decidable (a.Le b) :=
  inferInstanceAs (Decidable (_ ∨ _))

instance : Std.Total (Scored.Le (α := α)) where
  total a b := by
    rcases lt_trichotomy a.score b.score with h | h | h
    · exact .inl (.inl h)
    · rcases le_total a.member b.member with hm | hm
      · exact .inl (.inr ⟨h, hm⟩)
      · exact .inr (.inr ⟨h.symm, hm⟩)
    · exact .inr (.inl h)

instance : IsTrans (Scored α) Scored.Le where
  trans a b c hab hbc := by
    rcases hab with hab | ⟨hab, hm⟩ <;> rcases hbc with hbc | ⟨hbc, hm'⟩
    · exact .inl (hab.trans hbc)
    · exact .inl (hbc ▸ hab)
    · exact .inl (hab ▸ hbc)
    · exact .inr ⟨hab.trans hbc, hm.trans hm'⟩

/-- The members with their scores, in order. -/
structure SortedSet (α : Type*) [LinearOrder α] where
  entries : List (Scored α)
  sorted : entries.Pairwise Scored.Le
  nodup : (entries.map Scored.member).Nodup

namespace SortedSet

/-- No members. -/
def empty : SortedSet α := ⟨[], .nil, .nil⟩

variable (z : SortedSet α) (m : α) (score : Int)

/-- The members, by ascending score. -/
def members : List α := z.entries.map Scored.member

/-- `ZCARD`. -/
def card : Nat := z.entries.length

/-- `ZSCORE`. -/
def score? : Option Int := (z.entries.find? (·.member = m)).map Scored.score

/-- The greatest score. -/
def highest? : Option Int := z.entries.getLast?.map Scored.score

/-- `ZREM`. -/
def erase : SortedSet α where
  entries := z.entries.filter (·.member ≠ m)
  sorted := z.sorted.filter _
  nodup := z.nodup.sublist (List.filter_sublist.map _)

theorem mem_erase_entries {e : Scored α} :
    e ∈ (z.erase m).entries ↔ e ∈ z.entries ∧ e.member ≠ m := by
  simp [erase]

/-- `ZADD`. -/
def add : SortedSet α where
  entries := (z.erase m).entries.orderedInsert Scored.Le ⟨score, m⟩
  sorted := List.Pairwise.orderedInsert _ _ (z.erase m).sorted
  nodup := by
    have hperm := (List.perm_orderedInsert Scored.Le ⟨score, m⟩ (z.erase m).entries).map
      Scored.member
    refine hperm.nodup_iff.mpr (List.nodup_cons.mpr ⟨fun hm => ?_, (z.erase m).nodup⟩)
    obtain ⟨e, he, rfl⟩ := List.mem_map.mp hm
    exact ((mem_erase_entries z _).mp he).2 rfl

/-- The given score, or one above all scores if it is not above them already. -/
def scoreAbove : Int :=
  match z.highest? with
  | some highest => if score ≤ highest then highest + 1 else score
  | none => score

variable {z m score}

@[simp] theorem members_empty : (empty : SortedSet α).members = [] := rfl

theorem nodup_members (z : SortedSet α) : z.members.Nodup := z.nodup

theorem length_members (z : SortedSet α) : z.members.length = z.card := List.length_map _

theorem entries_eq_nil : z.entries = [] ↔ z.members = [] := by
  simp [members]

theorem card_eq_zero : z.card = 0 ↔ z.members = [] := by
  rw [← length_members, List.length_eq_zero_iff]

theorem members_erase (z : SortedSet α) (m : α) :
    (z.erase m).members = z.members.filter (· ≠ m) := by
  rw [members, members, erase, List.filter_map]
  rfl

theorem score?_eq_none : z.score? m = none ↔ m ∉ z.members := by
  simp [score?, members]

/-- No score is above the greatest. -/
theorem le_highest {e : Scored α} (he : e ∈ z.entries) :
    ∃ h, z.highest? = some h ∧ e.score ≤ h := by
  obtain ⟨last, hlast⟩ : ∃ last, z.entries.getLast? = some last :=
    Option.isSome_iff_exists.mp (List.getLast?_isSome.mpr (List.ne_nil_of_mem he))
  refine ⟨last.score, by simp [highest?, hlast], ?_⟩
  obtain ⟨front, hfront⟩ := List.getLast?_eq_some_iff.mp hlast
  rw [hfront, List.mem_append, List.mem_singleton] at he
  rcases he with he | rfl
  · have hsorted := z.sorted
    rw [hfront] at hsorted
    rcases (List.pairwise_append.mp hsorted).2.2 e he last (List.mem_singleton.mpr rfl) with h | h
    · exact h.le
    · exact h.1.le
  · exact le_rfl

theorem lt_scoreAbove (score : Int) : ∀ e ∈ z.entries, e.score < z.scoreAbove score := by
  intro e he
  obtain ⟨highest, hhighest, hle⟩ := le_highest he
  simp only [scoreAbove, hhighest]
  split <;> omega

/-- A new member whose score is above all others comes last. -/
theorem members_add_of_lt (hm : m ∉ z.members) (hlt : ∀ e ∈ z.entries, e.score < score) :
    (z.add m score).members = z.members ++ [m] := by
  have herase : (z.erase m).entries = z.entries := by
    refine List.filter_eq_self.mpr fun e he => decide_eq_true fun h => hm ?_
    exact h ▸ List.mem_map_of_mem he
  have hbelow : ∀ e ∈ z.entries, ¬ Scored.Le ⟨score, m⟩ e := by
    rintro e he (h | ⟨h, -⟩)
    · exact absurd (hlt e he) (not_lt.mpr h.le)
    · exact absurd (hlt e he) (not_lt.mpr h.le)
  have hentries : (z.add m score).entries = z.entries ++ [⟨score, m⟩] := by
    show (z.erase m).entries.orderedInsert Scored.Le ⟨score, m⟩ = _
    rw [herase, List.orderedInsert_eq_take_drop,
      List.takeWhile_eq_self_iff.mpr fun e he => decide_eq_true (hbelow e he),
      List.dropWhile_eq_nil_iff.mpr fun e he => decide_eq_true (hbelow e he)]
  rw [members, hentries, List.map_append]
  rfl

end SortedSet
end QueryCraft
