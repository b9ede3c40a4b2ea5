import Mathlib.Data.List.Nodup
import Mathlib.Logic.Function.Basic

/-! # Redis scripts

A store maps keys to strings, sets or values of other types.  A script reads and deletes
keys; a command on a value of the wrong type, or an error of the script itself, stops it, and
what it did before that stays.  Nothing else takes place while a script runs, and no time
passes, so that keys do not expire.

`Cleared` compares the store after some deletions with the store before them.
-/
namespace QueryCraft.Redis

/-- The members of a set, in the order in which `SMEMBERS` lists them.  A set without members
is not stored. -/
structure Members where
  list : List String
  nodup : list.Nodup
  ne_nil : list ≠ []

/-- The value of a key. -/
inductive Value where
  | string (text : String)
  | set (members : Members)
  /-- A hash, a list or the like, with its content. -/
  | other (content : String)

/-- The keys and their values. -/
abbrev Store := String → Option Value

/-- A script returns something, or stops with an error; either way it leaves a store. -/
def Script (α : Type) := Store → Option α × Store

instance : Monad Script where
  pure a := fun s => (some a, s)
  bind script f := fun s =>
    match script s with
    | (some a, s) => f a s
    | (none, s) => (none, s)

/-- An error. -/
def Script.fail {α : Type} : Script α := fun s => (none, s)

/-- The members of a set that are left without one of them. -/
def Members.without (m : Members) (x : String) : Option Value :=
  if h : m.list.filter (· ≠ x) = [] then none
  else some (.set ⟨m.list.filter (· ≠ x), m.nodup.filter _, h⟩)

/-- The members of the set at a key; a key without a value has none. -/
def members : Option Value → List String
  | some (.set m) => m.list
  | _ => []

/-- The value is absent or a set. -/
def IsSet (v : Option Value) : Prop := v = none ∨ ∃ m, v = some (.set m)

/-- The value is absent or a string. -/
def IsString (v : Option Value) : Prop := v = none ∨ ∃ text, v = some (.string text)

/-! ## Commands -/

/-- `GET`. -/
def get (key : String) : Script (Option String) := fun s =>
  match s key with
  | none => (some none, s)
  | some (.string text) => (some (some text), s)
  | some _ => (none, s)

/-- `DEL`. -/
def del (key : String) : Script Unit := fun s => (some (), Function.update s key none)

/-- `SMEMBERS`. -/
def smembers (key : String) : Script (List String) := fun s =>
  match s key with
  | none => (some [], s)
  | some (.set m) => (some m.list, s)
  | some _ => (none, s)

/-- `SREM`. -/
def srem (key member : String) : Script Unit := fun s =>
  match s key with
  | none => (some (), s)
  | some (.set m) => (some (), Function.update s key (m.without member))
  | some _ => (none, s)

/-- `SCARD`. -/
def scard (key : String) : Script Nat := do return (← smembers key).length

/-! ## Running them -/

section
variable {α β : Type} {s t : Store} {key : String}

@[simp] theorem pure_run (a : α) : (pure a : Script α) s = (some a, s) := rfl

theorem bind_run {script : Script α} {f : α → Script β} {a : α}
    (h : script s = (some a, t)) : (script >>= f) s = f a t := by
  show (match script s with
    | (some a, s) => f a s
    | (none, s) => (none, s)) = f a t
  rw [h]

@[simp] theorem del_run : del key s = (some (), Function.update s key none) := rfl

theorem get_run_none (h : s key = none) : get key s = (some none, s) := by
  simp [get, h]

theorem get_run_string {text : String} (h : s key = some (.string text)) :
    get key s = (some (some text), s) := by
  simp [get, h]

theorem smembers_run (h : IsSet (s key)) :
    smembers key s = (some (members (s key)), s) := by
  rcases h with h | ⟨m, h⟩
  · simp [smembers, h, members]
  · simp [smembers, h, members]

theorem scard_run (h : IsSet (s key)) :
    scard key s = (some (members (s key)).length, s) := by
  rw [scard, bind_run (smembers_run h)]
  rfl

theorem members_without (m : Members) (x : String) :
    members (m.without x) = m.list.filter (· ≠ x) := by
  unfold Members.without
  split
  · next h => rw [h]; rfl
  · rfl

theorem isSet_without (m : Members) (x : String) : IsSet (m.without x) := by
  unfold Members.without
  split
  · exact .inl rfl
  · exact .inr ⟨_, rfl⟩

/-- `SREM` takes one member away, and changes no other key. -/
theorem srem_run (h : IsSet (s key)) (x : String) : ∃ s', srem key x s = (some (), s') ∧
    (∀ k, k ≠ key → s' k = s k) ∧ IsSet (s' key) ∧
    members (s' key) = (members (s key)).filter (· ≠ x) := by
  rcases h with h | ⟨m, h⟩
  · refine ⟨s, by simp [srem, h], fun _ _ => rfl, .inl h, ?_⟩
    simp [members, h]
  · refine ⟨Function.update s key (m.without x), by simp [srem, h], ?_, ?_, ?_⟩
    · intro k hk
      rw [Function.update_of_ne hk]
    · rw [Function.update_self]
      exact isSet_without m x
    · rw [Function.update_self, members_without, h]
      rfl

/-- A set without members is absent. -/
theorem eq_none_of_members (h : IsSet (s key)) (hempty : members (s key) = []) :
    s key = none := by
  rcases h with h | ⟨m, h⟩
  · exact h
  · rw [h] at hempty
    exact absurd hempty m.ne_nil

end

/-! ## Deletions -/

/-- Apart from one key, `s'` is `s` without the keys in `P`. -/
structure Cleared (s : Store) (apart : String) (P : String → Prop) (s' : Store) : Prop where
  removed : ∀ k, k ≠ apart → P k → s' k = none
  kept : ∀ k, k ≠ apart → ¬ P k → s' k = s k

namespace Cleared
variable {s s' s'' : Store} {apart key : String} {P Q : String → Prop}

theorem refl : Cleared s apart (fun _ => False) s := ⟨fun _ _ h => h.elim, fun _ _ _ => rfl⟩

theorem congr (h : Cleared s apart P s') (hPQ : ∀ k, P k ↔ Q k) : Cleared s apart Q s' :=
  ⟨fun k hk hQ => h.removed k hk ((hPQ k).mpr hQ),
    fun k hk hQ => h.kept k hk fun hP => hQ ((hPQ k).mp hP)⟩

/-- A key is there after the deletions if it was there and was not deleted. -/
theorem eq_some_iff (h : Cleared s apart P s') (hkey : key ≠ apart) (v : Value) :
    s' key = some v ↔ s key = some v ∧ ¬ P key := by
  by_cases hP : P key
  · simp [h.removed key hkey hP, hP]
  · simp [h.kept key hkey hP, hP]

/-- Strings stay strings. -/
theorem isString (h : Cleared s apart P s') (hkey : key ≠ apart) (hs : IsString (s key)) :
    IsString (s' key) := by
  by_cases hP : P key
  · exact .inl (h.removed key hkey hP)
  · rw [h.kept key hkey hP]
    exact hs

/-- One more key is deleted. -/
theorem del (h : Cleared s apart P s') (key : String) :
    Cleared s apart (fun k => P k ∨ k = key) (Function.update s' key none) := by
  constructor
  · rintro k hk (hP | rfl)
    · by_cases hkey : k = key
      · rw [hkey, Function.update_self]
      · rw [Function.update_of_ne hkey, h.removed k hk hP]
    · rw [Function.update_self]
  · intro k hk hnot
    rw [not_or] at hnot
    rw [Function.update_of_ne hnot.2, h.kept k hk hnot.1]

/-- The key apart may change. -/
theorem change (h : Cleared s apart P s') (hs : ∀ k, k ≠ apart → s'' k = s' k) :
    Cleared s apart P s'' :=
  ⟨fun k hk hP => by rw [hs k hk, h.removed k hk hP],
    fun k hk hP => by rw [hs k hk, h.kept k hk hP]⟩

end Cleared

end QueryCraft.Redis
