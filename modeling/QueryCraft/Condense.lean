import Mathlib.Data.List.Infix

/-! # Condensing a text

A text is gone through character by character: some characters are kept, some are dropped, and
the rest count as white space, of which one space is left between two characters that are kept.
What is left is not condensed any further (`condense_condense`), and its neighbours were
neighbours before, up to characters that are dropped (`condense_eq_append`, `condense_append`).
-/
namespace QueryCraft

/-- What becomes of a character. -/
inductive Kind where
  | keep | space | drop
deriving DecidableEq, Repr

/-- Before the first character that is kept, right after one, or after white space. -/
inductive Place where
  | start | word | gap
deriving DecidableEq, Repr

/-- The place after white space. -/
def Place.spaced : Place → Place
  | .start => .start
  | _ => .gap

variable (kind : Char → Kind)

/-- The condensed text from a place on. -/
def condense : Place → List Char → List Char
  | _, [] => []
  | place, c :: cs =>
    match kind c with
    | .drop => condense place cs
    | .space => condense place.spaced cs
    | .keep => if place = .gap then ' ' :: c :: condense .word cs else c :: condense .word cs

variable {kind} {c : Char} {cs : List Char} {place : Place}

theorem condense_drop (h : kind c = .drop) : condense kind place (c :: cs) =
    condense kind place cs := by
  simp [condense, h]

theorem condense_space (h : kind c = .space) : condense kind place (c :: cs) =
    condense kind place.spaced cs := by
  simp [condense, h]

theorem condense_keep (h : kind c = .keep) : condense kind place (c :: cs) =
    if place = .gap then ' ' :: c :: condense kind .word cs
    else c :: condense kind .word cs := by
  simp [condense, h]

/-- A condensed text is not longer, but for the space that is due. -/
theorem length_condense_le (cs : List Char) (place : Place) :
    (condense kind place cs).length ≤ cs.length + if place = .gap then 1 else 0 := by
  induction cs generalizing place with
  | nil => simp [condense]
  | cons c cs ih =>
    rw [List.length_cons]
    cases hc : kind c with
    | drop =>
      rw [condense_drop hc]
      have := ih place
      omega
    | space =>
      rw [condense_space hc]
      have := ih place.spaced
      cases place <;> simp only [Place.spaced, reduceCtorEq, if_true, if_false] at this ⊢ <;> omega
    | keep =>
      rw [condense_keep hc]
      have := ih .word
      cases place <;>
        simp only [reduceCtorEq, if_true, if_false, List.length_cons] at this ⊢ <;> omega

/-- Every character was kept, or is a space. -/
theorem mem_condense {x : Char} (h : x ∈ condense kind place cs) :
    x = ' ' ∨ kind x = .keep ∧ x ∈ cs := by
  induction cs generalizing place with
  | nil => cases h
  | cons c cs ih =>
    have hrest : ∀ {place' : Place}, x ∈ condense kind place' cs →
        x = ' ' ∨ kind x = .keep ∧ x ∈ c :: cs := by
      intro place' hx
      rcases ih hx with hx | hx
      · exact .inl hx
      · exact .inr ⟨hx.1, List.mem_cons_of_mem _ hx.2⟩
    cases hc : kind c with
    | drop =>
      rw [condense_drop hc] at h
      exact hrest h
    | space =>
      rw [condense_space hc] at h
      exact hrest h
    | keep =>
      rw [condense_keep hc] at h
      have hkept : x ∈ c :: condense kind .word cs → x = ' ' ∨ kind x = .keep ∧ x ∈ c :: cs := by
        intro hx
        rcases List.mem_cons.mp hx with rfl | hx
        · exact .inr ⟨hc, List.mem_cons_self ..⟩
        · exact hrest hx
      split at h
      · rcases List.mem_cons.mp h with hx | hx
        · exact .inl hx
        · exact hkept hx
      · exact hkept h

section Space
variable (hspace : kind ' ' = .space)
include hspace

/-- A condensed text stays as it is, from each place. -/
theorem condense_condense_from (cs : List Char) :
    condense kind .start (condense kind .start cs) = condense kind .start cs ∧
    condense kind .word (condense kind .word cs) = condense kind .word cs ∧
    condense kind .word (condense kind .gap cs) = condense kind .gap cs := by
  induction cs with
  | nil => exact ⟨rfl, rfl, rfl⟩
  | cons c cs ih =>
    obtain ⟨hstart, hword, hgap⟩ := ih
    cases hc : kind c with
    | drop =>
      simp only [condense_drop hc]
      exact ⟨hstart, hword, hgap⟩
    | space =>
      simp only [condense_space hc, Place.spaced]
      exact ⟨hstart, hgap, hgap⟩
    | keep =>
      have hagain : ∀ place, place ≠ .gap → condense kind place (c :: condense kind .word cs) =
          c :: condense kind .word cs := by
        intro place hplace
        rw [condense_keep hc, if_neg hplace, hword]
      refine ⟨?_, ?_, ?_⟩
      · rw [condense_keep hc, if_neg (by decide), hagain _ (by decide)]
      · rw [condense_keep hc, if_neg (by decide), hagain _ (by decide)]
      · rw [condense_keep hc, if_pos rfl, condense_space hspace, Place.spaced, condense_keep hc,
          if_pos rfl, hword]
        decide

theorem condense_condense (cs : List Char) :
    condense kind .start (condense kind .start cs) = condense kind .start cs :=
  (condense_condense_from hspace cs).1

end Space

/-! ## Neighbours -/

/-- After a character that is kept, the text is condensed as after a word. -/
theorem condense_append {x : Char} (hx : kind x = .keep) (a r : List Char) (place : Place) :
    ∃ a', condense kind place (a ++ x :: r) = a' ++ x :: condense kind .word r := by
  induction a generalizing place with
  | nil =>
    rw [List.nil_append, condense_keep hx]
    split
    · exact ⟨[' '], rfl⟩
    · exact ⟨[], rfl⟩
  | cons c a ih =>
    rw [List.cons_append]
    cases hc : kind c with
    | drop =>
      rw [condense_drop hc]
      exact ih place
    | space =>
      rw [condense_space hc]
      exact ih place.spaced
    | keep =>
      obtain ⟨a', ha'⟩ := ih .word
      rw [condense_keep hc, ha']
      split
      · exact ⟨' ' :: c :: a', rfl⟩
      · exact ⟨c :: a', rfl⟩

/-- Characters that are dropped leave the neighbours together. -/
theorem condense_dropped {y : Char} (hy : kind y = .keep) {d : List Char}
    (hd : ∀ c ∈ d, kind c = .drop) (e : List Char) :
    condense kind .word (d ++ y :: e) = y :: condense kind .word e := by
  induction d with
  | nil => rw [List.nil_append, condense_keep hy, if_neg (by decide)]
  | cons c d ih =>
    rw [List.forall_mem_cons] at hd
    rw [List.cons_append, condense_drop hd.1, ih hd.2]

/-- A character of the condensed text stands in the text, and the rest comes from the rest. -/
theorem condense_eq_append {x : Char} (hx : x ≠ ' ') {a' r' : List Char}
    (h : condense kind place cs = a' ++ x :: r') :
    kind x = .keep ∧ ∃ a r, cs = a ++ x :: r ∧ r' = condense kind .word r := by
  induction cs generalizing place a' with
  | nil => simp [condense] at h
  | cons c cs ih =>
    have hrest : ∀ {place' : Place} {a'' : List Char}, condense kind place' cs = a'' ++ x :: r' →
        kind x = .keep ∧ ∃ a r, c :: cs = a ++ x :: r ∧ r' = condense kind .word r := by
      intro place' a'' h'
      obtain ⟨hkeep, a, r, hcs, hr⟩ := ih h'
      exact ⟨hkeep, c :: a, r, by rw [hcs, List.cons_append], hr⟩
    have hkept : kind c = .keep → ∀ {a'' : List Char},
        c :: condense kind .word cs = a'' ++ x :: r' →
        kind x = .keep ∧ ∃ a r, c :: cs = a ++ x :: r ∧ r' = condense kind .word r := by
      intro hc a'' h'
      cases a'' with
      | nil =>
        obtain ⟨rfl, rfl⟩ := List.cons.inj h'
        exact ⟨hc, [], cs, rfl, rfl⟩
      | cons b a'' => exact hrest (List.cons.inj h').2
    cases hc : kind c with
    | drop =>
      rw [condense_drop hc] at h
      exact hrest h
    | space =>
      rw [condense_space hc] at h
      exact hrest h
    | keep =>
      rw [condense_keep hc] at h
      split at h
      · cases a' with
        | nil => exact absurd (List.cons.inj h).1.symm hx
        | cons b a' => exact hkept hc (List.cons.inj h).2
      · exact hkept hc h

/-- The character right after a word stands after characters that are dropped. -/
theorem condense_eq_cons {y : Char} (hy : y ≠ ' ') {e' : List Char}
    (h : condense kind .word cs = y :: e') :
    kind y = .keep ∧
      ∃ d e, cs = d ++ y :: e ∧ (∀ c ∈ d, kind c = .drop) ∧ e' = condense kind .word e := by
  induction cs with
  | nil => cases h
  | cons c cs ih =>
    cases hc : kind c with
    | drop =>
      rw [condense_drop hc] at h
      obtain ⟨hkeep, d, e, hcs, hd, he⟩ := ih h
      refine ⟨hkeep, c :: d, e, by rw [hcs, List.cons_append], ?_, he⟩
      exact List.forall_mem_cons.mpr ⟨hc, hd⟩
    | space =>
      -- a space would come first
      rw [condense_space hc, Place.spaced] at h
      · have hgap : ∀ cs : List Char, condense kind .gap cs ≠ y :: e' := by
          intro cs
          induction cs with
          | nil => simp [condense]
          | cons b cs ih' =>
            cases hb : kind b with
            | drop => rw [condense_drop hb]; exact ih'
            | space => rw [condense_space hb]; exact ih'
            | keep =>
              rw [condense_keep hb, if_pos rfl]
              intro heq
              exact hy (List.cons.inj heq).1.symm
        exact absurd h (hgap cs)
      · decide
    | keep =>
      rw [condense_keep hc, if_neg (by decide)] at h
      obtain ⟨rfl, rfl⟩ := List.cons.inj h
      exact ⟨hc, [], cs, rfl, by simp, rfl⟩

end QueryCraft
