import Mathlib.Logic.Function.Basic

/-! # Keys that expire

A key space maps keys to values that may carry a time of expiry.  A key whose time
has passed counts as absent, although its entry is kept: what a key held when it
expired can still be talked about.  Times are natural numbers in a unit of the
user's choice, and a key is gone once the time is *past* its expiry.
-/
namespace QueryCraft

variable {K V : Type*}

/-- A value and the time after which it is gone; without one it stays. -/
structure Expiring (V : Type*) where
  value : V
  expireAt : Option Nat
deriving DecidableEq, Repr

/-- The value is still there. -/
def Expiring.live (now : Nat) (e : Expiring V) : Bool := e.expireAt.all (now ≤ ·)

/-- Keys with the values last written to them. -/
abbrev KeySpace (K V : Type*) := K → Option (Expiring V)

namespace KeySpace

/-- The entry of a key that has not expired. -/
def lookup (keys : KeySpace K V) (now : Nat) (k : K) : Option (Expiring V) :=
  (keys k).filter (·.live now)

/-- Writes a key. -/
def put [DecidableEq K] (keys : KeySpace K V) (k : K) (v : V) (expireAt : Option Nat) : KeySpace K V :=
  Function.update keys k (some ⟨v, expireAt⟩)

/-- Deletes a key. -/
def del [DecidableEq K] (keys : KeySpace K V) (k : K) : KeySpace K V := Function.update keys k none

/-- Sets the time of expiry of a key that is still there. -/
def expire [DecidableEq K] (keys : KeySpace K V) (now : Nat) (k : K) (t : Nat) : KeySpace K V :=
  match keys.lookup now k with
  | none => keys
  | some e => keys.put k e.value (some t)

/-- Changes the value of a key, whose time of expiry stays; without a new value the key is
deleted. -/
def alter [DecidableEq K] (keys : KeySpace K V) (now : Nat) (k : K) (f : Option V → Option V) :
    KeySpace K V :=
  match f ((keys.lookup now k).map (·.value)) with
  | none => keys.del k
  | some v => keys.put k v ((keys.lookup now k).bind (·.expireAt))

variable {keys : KeySpace K V} {now : Nat} {k k' : K}

theorem lookup_eq_some {e : Expiring V} :
    keys.lookup now k = some e ↔ keys k = some e ∧ e.live now = true := by
  simp [lookup, Option.filter_eq_some_iff]

/-- What is there later was there before. -/
theorem lookup_of_lookup_later {e : Expiring V} {later : Nat} (hle : now ≤ later)
    (h : keys.lookup later k = some e) : keys.lookup now k = some e := by
  rw [lookup_eq_some] at h ⊢
  refine ⟨h.1, ?_⟩
  rcases hexp : e.expireAt with _ | t
  · simp [Expiring.live, hexp]
  · simp only [Expiring.live, hexp, Option.all_some, decide_eq_true_eq] at h ⊢
    omega

variable [DecidableEq K]

@[simp] theorem put_self (v : V) (t : Option Nat) : keys.put k v t k = some ⟨v, t⟩ := by
  simp [put]

@[simp] theorem put_of_ne (h : k' ≠ k) (v : V) (t : Option Nat) : keys.put k v t k' = keys k' := by
  simp [put, h]

theorem lookup_put_self (v : V) (t : Option Nat) :
    (keys.put k v t).lookup now k = (some ⟨v, t⟩ : Option (Expiring V)).filter (·.live now) := by
  rw [lookup, put_self]

@[simp] theorem lookup_put_of_ne (h : k' ≠ k) (v : V) (t : Option Nat) :
    (keys.put k v t).lookup now k' = keys.lookup now k' := by
  rw [lookup, put_of_ne h, lookup]

@[simp] theorem lookup_del_self : (keys.del k).lookup now k = none := by
  simp [lookup, del]

@[simp] theorem lookup_del_of_ne (h : k' ≠ k) :
    (keys.del k).lookup now k' = keys.lookup now k' := by
  simp [lookup, del, h]

theorem lookup_expire_self {t : Nat} (ht : now ≤ t) :
    (keys.expire now k t).lookup now k = (keys.lookup now k).map fun e => ⟨e.value, some t⟩ := by
  rw [expire]
  rcases h : keys.lookup now k with _ | e
  · rw [h]
    rfl
  · rw [lookup_put_self, Option.map_some]
    simp [Option.filter, Expiring.live, ht]

@[simp] theorem lookup_expire_of_ne (h : k' ≠ k) (t : Nat) :
    (keys.expire now k t).lookup now k' = keys.lookup now k' := by
  rw [expire]
  split
  · rfl
  · exact lookup_put_of_ne h _ _

theorem lookup_alter_self (f : Option V → Option V) :
    (keys.alter now k f).lookup now k = (f ((keys.lookup now k).map (·.value))).map
      fun v => ⟨v, (keys.lookup now k).bind (·.expireAt)⟩ := by
  rw [alter]
  cases f ((keys.lookup now k).map (·.value)) with
  | none => exact lookup_del_self
  | some v =>
    rw [lookup_put_self, Option.map_some, Option.filter_eq_some_iff]
    refine ⟨rfl, ?_⟩
    rcases h : keys.lookup now k with _ | e
    · rfl
    · exact (lookup_eq_some.mp h).2

@[simp] theorem lookup_alter_of_ne (h : k' ≠ k) (f : Option V → Option V) :
    (keys.alter now k f).lookup now k' = keys.lookup now k' := by
  rw [alter]
  split
  · exact lookup_del_of_ne h
  · exact lookup_put_of_ne h _ _

end KeySpace
end QueryCraft
