import QueryCraft.Regex

/-! # What a match takes

A match takes a part of the text that is a word of the expression, whatever its anchors ask for
(`exists_word_of_search`).  So nothing is found in a text without the characters, or the
neighbours, that all words of the expression have; `Regex.needs` looks for such.

An expression `^k*l` is found exactly where characters of the class `k` and then one of the class
`l` start the text (`search_start_iff`).
-/
namespace QueryCraft
namespace Regex
variable {κ : Type}

/-! ## Words -/

section Words
variable (test : κ → Char → Bool)

/-- The words of an expression, where its anchors are ignored. -/
inductive Word : Regex κ → List Char → Prop where
  | empty : Word .empty []
  | one {k : κ} {c : Char} (h : test k c = true) : Word (.one k) [c]
  | start : Word .start []
  | boundary {word : κ} : Word (.boundary word) []
  | seq {r s : Regex κ} {u v : List Char} : Word r u → Word s v → Word (.seq r s) (u ++ v)
  | left {r s : Regex κ} {u : List Char} : Word r u → Word (.alt r s) u
  | right {r s : Regex κ} {u : List Char} : Word s u → Word (.alt r s) u
  | done {r : Regex κ} : Word (.star r) []
  | more {r : Regex κ} {u v : List Char} : Word r u → Word (.star r) v → Word (.star r) (u ++ v)

variable {test}

/-- The rest is left with a position after a word. -/
def Takes (test : κ → Char → Bool) (r : Regex κ) (cs : List Char) (rest : Rest) : Prop :=
  ∃ u before cs', cs = u ++ cs' ∧ Word test r u ∧ rest before cs' = true

theorem takes_of_rounds {r : Regex κ}
    (hr : ∀ {before cs rest}, run test r before cs rest = true → Takes test r cs rest)
    (n : Nat) {before : Option Char} {cs : List Char} {rest : Rest}
    (h : rounds (run test r) n before cs rest = true) : Takes test (.star r) cs rest := by
  induction n generalizing before cs with
  | zero => exact ⟨[], before, cs, rfl, .done, h⟩
  | succ n ih =>
    rw [rounds, Bool.or_eq_true] at h
    rcases h with h | h
    · exact ⟨[], before, cs, rfl, .done, h⟩
    · obtain ⟨u, _, cs', rfl, hu, hround⟩ := hr h
      obtain ⟨v, before', cs'', rfl, hv, hrest⟩ := ih hround
      exact ⟨u ++ v, before', cs'', (List.append_assoc ..).symm, .more hu hv, hrest⟩

/-- A match takes a word. -/
theorem takes_of_run (r : Regex κ) {before : Option Char} {cs : List Char} {rest : Rest}
    (h : run test r before cs rest = true) : Takes test r cs rest := by
  induction r generalizing before cs rest with
  | empty => exact ⟨[], before, cs, rfl, .empty, h⟩
  | one k =>
    cases cs with
    | nil => cases h
    | cons c cs =>
      rw [run, Bool.and_eq_true] at h
      exact ⟨[c], some c, cs, rfl, .one h.1, h.2⟩
  | start =>
    rw [run, Bool.and_eq_true] at h
    exact ⟨[], before, cs, rfl, .start, h.2⟩
  | boundary word =>
    rw [run, Bool.and_eq_true] at h
    exact ⟨[], before, cs, rfl, .boundary, h.2⟩
  | seq r s ihr ihs =>
    obtain ⟨u, _, cs', rfl, hu, hs⟩ := ihr h
    obtain ⟨v, before', cs'', rfl, hv, hrest⟩ := ihs hs
    exact ⟨u ++ v, before', cs'', (List.append_assoc ..).symm, .seq hu hv, hrest⟩
  | alt r s ihr ihs =>
    rw [run, Bool.or_eq_true] at h
    rcases h with h | h
    · obtain ⟨u, before', cs', hcs, hu, hrest⟩ := ihr h
      exact ⟨u, before', cs', hcs, .left hu, hrest⟩
    · obtain ⟨u, before', cs', hcs, hu, hrest⟩ := ihs h
      exact ⟨u, before', cs', hcs, .right hu, hrest⟩
  | star r ih => exact takes_of_rounds ih cs.length h

/-- What is found in a text is a word that stands in it. -/
theorem exists_word_of_search {r : Regex κ} {text : List Char} (h : search test r text = true) :
    ∃ u, u <:+: text ∧ Word test r u := by
  have hfrom : ∀ cs before, searchFrom test r before cs = true →
      ∃ u, u <:+: cs ∧ Word test r u := by
    intro cs
    induction cs with
    | nil =>
      intro before hrun
      obtain ⟨u, _, cs', hcs, hu, -⟩ := takes_of_run r hrun
      exact ⟨u, ⟨[], cs', hcs.symm⟩, hu⟩
    | cons c cs ih =>
      intro before hfound
      rw [searchFrom, Bool.or_eq_true] at hfound
      rcases hfound with hrun | hlater
      · obtain ⟨u, _, cs', hcs, hu, -⟩ := takes_of_run r hrun
        exact ⟨u, ⟨[], cs', hcs.symm⟩, hu⟩
      · obtain ⟨u, hinfix, hu⟩ := ih _ hlater
        exact ⟨u, hinfix.trans (List.suffix_cons c cs).isInfix, hu⟩
  exact hfrom text none h

end Words

/-! ## What all words have -/

/-- Classes one of which the first character of every word is in, if the form of the expression
shows them. -/
def firsts : Regex κ → Option (List κ)
  | .one k => some [k]
  | .seq r _ => firsts r
  | .alt r s => (firsts r).bind fun ks => (firsts s).map (ks ++ ·)
  | _ => none

/-- The same for the last character. -/
def lasts : Regex κ → Option (List κ)
  | .one k => some [k]
  | .seq _ s => lasts s
  | .alt r s => (lasts r).bind fun ks => (lasts s).map (ks ++ ·)
  | _ => none

section Needs
variable (absent : κ → Bool) (apart : κ → κ → Bool)

/-- Whatever a word of `r` ends with and a word of `s` begins with is apart. -/
def meetsApart (r s : Regex κ) : Bool :=
  (lasts r).any fun ks => (firsts s).any fun ls => ks.all fun k => ls.all (apart k)

/-- Every word has a character of an absent class, or neighbours that are apart. -/
def needs : Regex κ → Bool
  | .one k => absent k
  | .seq r s => needs r || needs s || meetsApart apart r s
  | .alt r s => needs r && needs s
  | _ => false

variable {test : κ → Char → Bool} {absent apart}

theorem Word.exists_first {r : Regex κ} {u : List Char} {ks : List κ} (h : Word test r u)
    (hr : firsts r = some ks) : ∃ c v, u = c :: v ∧ ∃ k ∈ ks, test k c = true := by
  induction h generalizing ks with
  | one hc =>
    obtain rfl := Option.some.inj hr
    exact ⟨_, [], rfl, _, List.mem_singleton_self _, hc⟩
  | seq _ _ ihr _ =>
    obtain ⟨c, v, rfl, hk⟩ := ihr hr
    exact ⟨c, _, rfl, hk⟩
  | left _ ih =>
    obtain ⟨ks', hks', hmap⟩ := Option.bind_eq_some_iff.mp hr
    obtain ⟨ls, -, rfl⟩ := Option.map_eq_some_iff.mp hmap
    obtain ⟨c, v, rfl, k, hk, hc⟩ := ih hks'
    exact ⟨c, v, rfl, k, List.mem_append_left _ hk, hc⟩
  | right _ ih =>
    obtain ⟨ks', -, hmap⟩ := Option.bind_eq_some_iff.mp hr
    obtain ⟨ls, hls, rfl⟩ := Option.map_eq_some_iff.mp hmap
    obtain ⟨c, v, rfl, k, hk, hc⟩ := ih hls
    exact ⟨c, v, rfl, k, List.mem_append_right _ hk, hc⟩
  | _ => cases hr

theorem Word.exists_last {r : Regex κ} {u : List Char} {ks : List κ} (h : Word test r u)
    (hr : lasts r = some ks) : ∃ v c, u = v ++ [c] ∧ ∃ k ∈ ks, test k c = true := by
  induction h generalizing ks with
  | one hc =>
    obtain rfl := Option.some.inj hr
    exact ⟨[], _, rfl, _, List.mem_singleton_self _, hc⟩
  | seq _ _ _ ihs =>
    obtain ⟨v, c, rfl, hk⟩ := ihs hr
    exact ⟨_, c, (List.append_assoc ..).symm, hk⟩
  | left _ ih =>
    obtain ⟨ks', hks', hmap⟩ := Option.bind_eq_some_iff.mp hr
    obtain ⟨ls, -, rfl⟩ := Option.map_eq_some_iff.mp hmap
    obtain ⟨v, c, rfl, k, hk, hc⟩ := ih hks'
    exact ⟨v, c, rfl, k, List.mem_append_left _ hk, hc⟩
  | right _ ih =>
    obtain ⟨ks', -, hmap⟩ := Option.bind_eq_some_iff.mp hr
    obtain ⟨ls, hls, rfl⟩ := Option.map_eq_some_iff.mp hmap
    obtain ⟨v, c, rfl, k, hk, hc⟩ := ih hls
    exact ⟨v, c, rfl, k, List.mem_append_right _ hk, hc⟩
  | _ => cases hr

/-- The text has no character of an absent class, and no neighbours of classes that are apart. -/
structure Avoids (test : κ → Char → Bool) (absent : κ → Bool) (apart : κ → κ → Bool)
    (text : List Char) : Prop where
  absent : ∀ k, absent k = true → ∀ c ∈ text, test k c = false
  apart : ∀ k l, apart k l = true → ∀ c d, [c, d] <:+: text → test k c = true → test l d = false

theorem Avoids.of_infix {u text : List Char} (h : Avoids test absent apart text)
    (hu : u <:+: text) : Avoids test absent apart u :=
  ⟨fun k hk c hc => h.absent k hk c (hu.subset hc),
    fun k l hkl c d hcd => h.apart k l hkl c d (hcd.trans hu)⟩

/-- A text that avoids what all words have is not a word. -/
theorem Word.not_avoids {r : Regex κ} {u : List Char} (h : Word test r u)
    (hr : needs absent apart r = true) : ¬ Avoids test absent apart u := by
  induction h with
  | one hc =>
    intro havoids
    rw [havoids.absent _ hr _ (List.mem_singleton_self _)] at hc
    cases hc
  | @seq r s u v hu hv ihr ihs =>
    intro havoids
    rw [needs, Bool.or_eq_true, Bool.or_eq_true] at hr
    rcases hr with (hr | hs) | hmeet
    · exact ihr hr (havoids.of_infix (List.prefix_append u v).isInfix)
    · exact ihs hs (havoids.of_infix (List.suffix_append u v).isInfix)
    · -- the last character of `u` and the first one of `v` are neighbours
      simp only [meetsApart, Option.any_eq_true, List.all_eq_true] at hmeet
      obtain ⟨ks, hks, ls, hls, hall⟩ := hmeet
      obtain ⟨u', c, rfl, k, hk, hc⟩ := hu.exists_last hks
      obtain ⟨d, v', rfl, l, hl, hd⟩ := hv.exists_first hls
      have hcd : [c, d] <:+: u' ++ [c] ++ d :: v' := ⟨u', v', by simp⟩
      rw [havoids.apart k l (hall k hk l hl) c d hcd hc] at hd
      cases hd
  | left _ ih =>
    rw [needs, Bool.and_eq_true] at hr
    exact ih hr.1
  | right _ ih =>
    rw [needs, Bool.and_eq_true] at hr
    exact ih hr.2
  | _ => cases hr

/-- Nothing is found in a text that avoids what all words have. -/
theorem search_eq_false {r : Regex κ} {text : List Char} (hr : needs absent apart r = true)
    (h : Avoids test absent apart text) : search test r text = false := by
  rw [Bool.eq_false_iff]
  intro hfound
  obtain ⟨u, hu, hword⟩ := exists_word_of_search hfound
  exact hword.not_avoids hr (h.of_infix hu)

end Needs

/-! ## Expressions for the start of a text -/

section Start
variable {test : κ → Char → Bool}

/-- Rounds of a class take characters of that class. -/
theorem rounds_one_iff {k : κ} {rest : List Char → Bool} (n : Nat) {before : Option Char}
    {cs : List Char} (hn : cs.length ≤ n) :
    rounds (run test (.one k)) n before cs (fun _ cs => rest cs) = true ↔
      ∃ u v, cs = u ++ v ∧ (∀ c ∈ u, test k c = true) ∧ rest v = true := by
  induction n generalizing before cs with
  | zero =>
    obtain rfl := List.eq_nil_of_length_eq_zero (Nat.le_zero.mp hn)
    constructor
    · intro h
      exact ⟨[], [], rfl, by simp, h⟩
    · rintro ⟨u, v, huv, -, hv⟩
      obtain ⟨-, rfl⟩ := List.append_eq_nil_iff.mp huv.symm
      exact hv
  | succ n ih =>
    cases cs with
    | nil =>
      constructor
      · intro h
        rw [rounds, run, Bool.or_false] at h
        exact ⟨[], [], rfl, by simp, h⟩
      · rintro ⟨u, v, huv, -, hv⟩
        obtain ⟨-, rfl⟩ := List.append_eq_nil_iff.mp huv.symm
        rw [rounds, hv, Bool.true_or]
    | cons c cs =>
      have hlength : cs.length ≤ n := Nat.le_of_succ_le_succ hn
      rw [rounds, Bool.or_eq_true, run, Bool.and_eq_true, ih hlength]
      constructor
      · rintro (h | ⟨hc, u, v, rfl, hu, hv⟩)
        · exact ⟨[], c :: cs, rfl, by simp, h⟩
        · exact ⟨c :: u, v, rfl, List.forall_mem_cons.mpr ⟨hc, hu⟩, hv⟩
      · rintro ⟨u, v, huv, hu, hv⟩
        cases u with
        | nil =>
          left
          rw [huv]
          exact hv
        | cons d u =>
          obtain ⟨rfl, rfl⟩ := List.cons.inj huv
          obtain ⟨hd, hu⟩ := List.forall_mem_cons.mp hu
          exact .inr ⟨hd, u, v, rfl, hu, hv⟩

/-- `^k*l` matches a text that starts with characters of `k` and one of `l`. -/
theorem search_start_iff {k l : κ} {text : List Char} :
    search test (seqs [.start, .star (.one k), .one l]) text = true ↔
      ∃ u c v, text = u ++ c :: v ∧ (∀ d ∈ u, test k d = true) ∧ test l c = true := by
  have hlater : ∀ cs c, searchFrom test (seqs [.start, .star (.one k), .one l]) (some c) cs =
      false := by
    intro cs
    induction cs with
    | nil => intro c; rfl
    | cons d cs ih => intro c; rw [searchFrom, ih]; rfl
  have hhere : search test (seqs [.start, .star (.one k), .one l]) text =
      rounds (run test (.one k)) text.length none text
        (fun _ cs => run test (.one l) none cs fun _ _ => true) := by
    have hone : (fun before cs => run test (.one l) before cs fun _ _ => true) =
        fun _ cs => run test (.one l) none cs fun _ _ => true := by
      funext before cs
      cases cs <;> rfl
    rw [← hone]
    cases text with
    | nil => rfl
    | cons c cs => rw [search, searchFrom, hlater, Bool.or_false]; rfl
  rw [hhere, rounds_one_iff text.length (Nat.le_refl _)]
  constructor
  · rintro ⟨u, v, rfl, hu, hv⟩
    cases v with
    | nil => cases hv
    | cons c v => exact ⟨u, c, v, rfl, hu, by simpa [run] using hv⟩
  · rintro ⟨u, c, v, rfl, hu, hc⟩
    exact ⟨u, c :: v, rfl, hu, by simpa [run] using hc⟩

end Start

end Regex
end QueryCraft
