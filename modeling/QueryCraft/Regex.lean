import Mathlib.Data.List.Basic

/-! # Regular expressions with anchors

Expressions are built over character classes `κ`, which `test` interprets.  A position in a text is
the character before it, if there is one, and the text after it; that is what the anchors `^` and
`\b` look at.  The matcher goes through the expression with a continuation for the rest of the
match, as a backtracking matcher does.

Whether a text is matched depends on the classes of its own characters only (`search_congr`).
-/
namespace QueryCraft

/-- A regular expression over the character classes `κ`. -/
inductive Regex (κ : Type) where
  | empty
  | one (k : κ)
  /-- `^`, the start of the text. -/
  | start
  /-- `\b`, a position at which the class of word characters changes. -/
  | boundary (word : κ)
  | seq (r s : Regex κ)
  | alt (r s : Regex κ)
  | star (r : Regex κ)

namespace Regex
variable {κ : Type}

/-! ## Derived forms -/

/-- One expression after the other. -/
def seqs : List (Regex κ) → Regex κ
  | [] => .empty
  | [r] => r
  | r :: rs => .seq r (seqs rs)

/-- One of several expressions. -/
def alts (r : Regex κ) : List (Regex κ) → Regex κ
  | [] => r
  | s :: rs => .alt r (alts s rs)

/-- `r?`. -/
def opt (r : Regex κ) : Regex κ := .alt r .empty

/-- `r+`. -/
def plus (r : Regex κ) : Regex κ := .seq r (.star r)

/-- `r{n}`. -/
def times (n : Nat) (r : Regex κ) : Regex κ := seqs (List.replicate n r)

/-- `r{n,}`. -/
def atLeast (n : Nat) (r : Regex κ) : Regex κ := .seq (times n r) (.star r)

/-- `r{m,n}`. -/
def between (m n : Nat) (r : Regex κ) : Regex κ := .seq (times m r) (times (n - m) (opt r))

/-! ## Matching -/

/-- What is left to do at a position. -/
abbrev Rest := Option Char → List Char → Bool

/-- At most `n` rounds of a matcher. -/
def rounds (step : Option Char → List Char → Rest → Bool) : Nat → Option Char → List Char →
    Rest → Bool
  | 0, before, cs, rest => rest before cs
  | n + 1, before, cs, rest =>
    rest before cs || step before cs fun before cs => rounds step n before cs rest

variable (test : κ → Char → Bool)

/-- The expression matches from a position on, up to one where the rest succeeds.  A round of `*`
that takes no character changes nothing, so there are at most as many as characters. -/
def run : Regex κ → Option Char → List Char → Rest → Bool
  | .empty, before, cs, rest => rest before cs
  | .one _, _, [], _ => false
  | .one k, _, c :: cs, rest => test k c && rest (some c) cs
  | .start, before, cs, rest => before.isNone && rest before cs
  | .boundary word, before, cs, rest =>
    (before.any (test word) != cs.head?.any (test word)) && rest before cs
  | .seq r s, before, cs, rest => run r before cs fun before cs => run s before cs rest
  | .alt r s, before, cs, rest => run r before cs rest || run s before cs rest
  | .star r, before, cs, rest => rounds (run r) cs.length before cs rest

/-- The expression matches from a position on, or from a later one. -/
def searchFrom (r : Regex κ) : Option Char → List Char → Bool
  | before, [] => run test r before [] fun _ _ => true
  | before, c :: cs => run test r before (c :: cs) (fun _ _ => true) || searchFrom r (some c) cs

/-- The expression matches somewhere in the text. -/
def search (r : Regex κ) (text : List Char) : Bool := searchFrom test r none text

/-! ## Congruence -/

section Congruence
variable {test} {test' : κ → Char → Bool}

/-- The classes of the characters around a position are the same under both interpretations. -/
def Alike (test test' : κ → Char → Bool) (before : Option Char) (cs : List Char) : Prop :=
  (∀ c, before = some c → ∀ k, test k c = test' k c) ∧ ∀ c ∈ cs, ∀ k, test k c = test' k c

theorem Alike.tail {before : Option Char} {c : Char} {cs : List Char}
    (h : Alike test test' before (c :: cs)) : Alike test test' (some c) cs := by
  refine ⟨?_, fun d hd => h.2 d (List.mem_cons_of_mem _ hd)⟩
  rintro d ⟨⟩
  exact h.2 c List.mem_cons_self

theorem Alike.any_before {before : Option Char} {cs : List Char}
    (h : Alike test test' before cs) (k : κ) : before.any (test k) = before.any (test' k) := by
  cases before with
  | none => rfl
  | some c => exact h.1 c rfl k

theorem Alike.any_head {before : Option Char} {cs : List Char}
    (h : Alike test test' before cs) (k : κ) : cs.head?.any (test k) = cs.head?.any (test' k) := by
  cases cs with
  | nil => rfl
  | cons c cs => exact h.2 c List.mem_cons_self k

/-- Rounds of two matchers agree where the matchers do. -/
theorem rounds_congr {step step' : Option Char → List Char → Rest → Bool}
    (hstep : ∀ before cs rest rest', Alike test test' before cs →
      (∀ before cs, Alike test test' before cs → rest before cs = rest' before cs) →
      step before cs rest = step' before cs rest') {rest rest' : Rest}
    (hrest : ∀ before cs, Alike test test' before cs → rest before cs = rest' before cs)
    (n : Nat) {before : Option Char} {cs : List Char} (h : Alike test test' before cs) :
    rounds step n before cs rest = rounds step' n before cs rest' := by
  induction n generalizing before cs with
  | zero => exact hrest before cs h
  | succ n ih =>
    rw [rounds, rounds, hrest before cs h]
    congr 1
    exact hstep before cs _ _ h fun _ _ h' => ih h'

/-- A match depends on the classes of the characters of the text only. -/
theorem run_congr (r : Regex κ) {before : Option Char} {cs : List Char} {rest rest' : Rest}
    (h : Alike test test' before cs)
    (hrest : ∀ before cs, Alike test test' before cs → rest before cs = rest' before cs) :
    run test r before cs rest = run test' r before cs rest' := by
  induction r generalizing before cs rest rest' with
  | empty => exact hrest before cs h
  | one k =>
    cases cs with
    | nil => rfl
    | cons c cs => rw [run, run, h.2 c List.mem_cons_self k, hrest _ _ h.tail]
  | start => rw [run, run, hrest before cs h]
  | boundary word => rw [run, run, h.any_before, h.any_head, hrest before cs h]
  | seq r s ihr ihs => exact ihr h fun _ _ h' => ihs h' hrest
  | alt r s ihr ihs => rw [run, run, ihr h hrest, ihs h hrest]
  | star r ih =>
    refine rounds_congr ?_ hrest cs.length h
    intro before cs rest rest' h' hrest'
    exact ih h' hrest'

/-- A search depends on the classes of the characters of the text only. -/
theorem search_congr (r : Regex κ) {text : List Char}
    (h : ∀ c ∈ text, ∀ k, test k c = test' k c) : search test r text = search test' r text := by
  have hfrom : ∀ cs before, Alike test test' before cs →
      searchFrom test r before cs = searchFrom test' r before cs := by
    intro cs
    induction cs with
    | nil =>
      intro before hb
      exact run_congr r hb fun _ _ _ => rfl
    | cons c cs ih =>
      intro before hb
      rw [searchFrom, searchFrom, run_congr r hb fun _ _ _ => rfl, ih _ hb.tail]
  exact hfrom text none ⟨by rintro c ⟨⟩, h⟩

end Congruence

end Regex

end QueryCraft
