import Mathlib.Data.List.Sort

/-! # Keyset pagination

A page starts below a bound: it consists of the first rows, in descending order of their
keys, whose keys are below it.  One row more than fits is read, to see whether the page is
the last one; if it is not, the key of its last row is the bound of the next page.

`fetch` below is any way to get the page for a cursor.  If it finds the pages of a list of
rows with distinct keys, then following the cursors from the start runs through the list
once, whatever the cursors look like (`followCursors_flatten`).
-/
namespace QueryCraft

variable {α K C : Type} [LinearOrder K] (key : α → K)

/-- The rows in descending order of their keys. -/
def descending (rows : List α) : List α :=
  rows.insertionSort fun a b => key b ≤ key a

/-- The rows are in strictly descending order. -/
def Descends (rows : List α) : Prop := rows.Pairwise fun a b => key b < key a

/-- The keys below the bound; there need not be one. -/
def below : Option K → K → Bool
  | none, _ => true
  | some k, k' => decide (k' < k)

/-- The page of at most `limit` rows at the start of a list, and the last of them if it is
not the end. -/
def firstPage (limit : Nat) (rows : List α) : List α × Option α :=
  if (rows.take (limit + 1)).length ≤ limit then (rows.take (limit + 1), none)
  else ((rows.take (limit + 1)).take limit, ((rows.take (limit + 1)).take limit).getLast?)

/-- At most so many pages, following the cursors; `none` if there are more, or if a cursor is
refused. -/
def followCursors (fetch : Option C → Option (List α × Option C)) :
    Nat → Option C → Option (List (List α))
  | 0, _ => none
  | n + 1, cursor =>
    match fetch cursor with
    | none => none
    | some (page, none) => some [page]
    | some (page, some next) => (followCursors fetch n (some next)).map (page :: ·)

/-- The list has the rows with a property, each once, in descending order. -/
structure Lists (p : α → Prop) (rows xs : List α) : Prop where
  ordered : Descends key xs
  mem : ∀ a, a ∈ xs ↔ a ∈ rows ∧ p a

/-! ## Order -/

variable {key} {rows : List α}

theorem perm_descending (rows : List α) : (descending key rows).Perm rows :=
  List.perm_insertionSort _ rows

theorem mem_descending {a : α} : a ∈ descending key rows ↔ a ∈ rows :=
  (perm_descending rows).mem_iff

/-- With distinct keys the order is strict. -/
theorem descends_descending (h : (rows.map key).Nodup) : Descends key (descending key rows) := by
  have hsorted : (descending key rows).Pairwise fun a b => key b ≤ key a := by
    have : Std.Total fun a b : α => key b ≤ key a := ⟨fun a b => le_total (key b) (key a)⟩
    have : IsTrans α fun a b => key b ≤ key a := ⟨fun _ _ _ hab hbc => hbc.trans hab⟩
    exact List.pairwise_insertionSort _ rows
  have hne : (descending key rows).Pairwise fun a b => key a ≠ key b := by
    rw [← List.pairwise_map (f := key) (R := (· ≠ ·))]
    exact ((perm_descending rows).map key).nodup_iff.mpr h
  exact hsorted.imp₂ (fun _ _ hle hne => lt_of_le_of_ne hle hne.symm) hne

theorem Descends.sublist {xs ys : List α} (h : Descends key ys) (hs : xs.Sublist ys) :
    Descends key xs := List.Pairwise.sublist hs h

/-- There is one way to order rows. -/
theorem Descends.eq_of_perm {xs ys : List α} (hx : Descends key xs) (hy : Descends key ys)
    (h : xs.Perm ys) : xs = ys := by
  refine h.eq_of_pairwise ?_ hx hy
  intro a b _ _ hab hba
  exact absurd hab (not_lt_of_gt hba)

/-- Rows can be selected before or after they are ordered. -/
theorem descending_filter (h : (rows.map key).Nodup) (p : α → Bool) :
    descending key (rows.filter p) = (descending key rows).filter p := by
  have hsub : ((rows.filter p).map key).Nodup :=
    h.sublist (List.filter_sublist.map key)
  refine (descends_descending hsub).eq_of_perm
    ((descends_descending h).sublist List.filter_sublist) ?_
  exact (perm_descending _).trans ((perm_descending rows).symm.filter p)

theorem lists_descending (h : (rows.map key).Nodup) (p : α → Bool) :
    Lists key (fun a => p a = true) rows (descending key (rows.filter p)) where
  ordered := descends_descending (h.sublist (List.filter_sublist.map key))
  mem _ := mem_descending.trans List.mem_filter

/-- A listing is as long as there are rows with the property. -/
theorem Lists.length_eq {p : α → Bool} {xs : List α} (h : Lists key (fun a => p a = true) rows xs)
    (hrows : rows.Nodup) : xs.length = rows.countP p := by
  have hxs : xs.Nodup := by
    refine List.Pairwise.imp ?_ h.ordered
    rintro a b hlt rfl
    exact lt_irrefl _ hlt
  have hperm : xs.Perm (rows.filter p) := by
    refine (List.perm_ext_iff_of_nodup hxs (hrows.filter p)).mpr fun a => ?_
    rw [h.mem, List.mem_filter]
  rw [hperm.length_eq, List.countP_eq_length_filter]

/-- The rows below the key of a row are those after it. -/
theorem Descends.filter_below {xs ys : List α} {a : α} (h : Descends key (xs ++ a :: ys)) :
    (xs ++ a :: ys).filter (fun b => below (some (key a)) (key b)) = ys := by
  obtain ⟨-, ha, hxs⟩ := List.pairwise_append.mp h
  have hys := (List.pairwise_cons.mp ha).1
  rw [List.filter_append, List.filter_cons_of_neg (by simp [below])]
  rw [List.filter_eq_nil_iff.mpr, List.nil_append, List.filter_eq_self.mpr]
  · intro b hb
    exact decide_eq_true (hys b hb)
  · intro b hb
    have := hxs b hb a (List.mem_cons_self ..)
    simp [below, this.le]

/-! ## Pages -/

theorem firstPage_of_le {limit : Nat} (h : rows.length ≤ limit) :
    firstPage limit rows = (rows, none) := by
  have htake : rows.take (limit + 1) = rows := List.take_of_length_le (by omega)
  rw [firstPage, htake, if_pos h]

/-- A page that is not the last one ends with a row, and the rest comes after it. -/
theorem firstPage_of_lt {limit : Nat} (hlimit : 1 ≤ limit) (h : limit < rows.length) :
    ∃ page a rest, firstPage limit rows = (page ++ [a], some a) ∧
      rows = page ++ a :: rest := by
  have hlen : ¬ (rows.take (limit + 1)).length ≤ limit := by
    rw [List.length_take]
    omega
  have htake : (rows.take (limit + 1)).take limit = rows.take limit := by
    rw [List.take_take]
    congr 1
    omega
  have hne : rows.take limit ≠ [] := by
    apply List.ne_nil_of_length_pos
    rw [List.length_take]
    omega
  refine ⟨(rows.take limit).dropLast, (rows.take limit).getLast hne, rows.drop limit, ?_, ?_⟩
  · rw [firstPage, if_neg hlen, htake, List.dropLast_append_getLast,
      List.getLast?_eq_getLast_of_ne_nil hne]
  · rw [← List.singleton_append, ← List.append_assoc, List.dropLast_append_getLast,
      List.take_append_drop]

section Walk
variable {limit : Nat} {encode : α → C} {fetch : Option C → Option (List α × Option C)}

/-- `fetch` finds the pages of the list; the cursor of a page stands for its last row. -/
def Fetches (key : α → K) (limit : Nat) (encode : α → C)
    (fetch : Option C → Option (List α × Option C)) (rows : List α) : Prop :=
  ∀ bound : Option α, (∀ a ∈ bound, a ∈ rows) → fetch (bound.map encode) =
    some ((firstPage limit (rows.filter fun a => below (bound.map key) (key a))).map id
      (Option.map encode))

/-- From a bound on, the pages are those of the rows below it. -/
theorem followCursors_from (hlimit : 1 ≤ limit) (hrows : Descends key rows)
    (hfetch : Fetches key limit encode fetch rows) :
    ∀ (n : Nat) (bound : Option α), (∀ a ∈ bound, a ∈ rows) →
      (rows.filter fun a => below (bound.map key) (key a)).length < n →
      ∃ pages, followCursors fetch n (bound.map encode) = some pages ∧
        pages.flatten = rows.filter fun a => below (bound.map key) (key a) := by
  intro n
  induction n with
  | zero =>
    intro bound _ h
    omega
  | succ n ih =>
    intro bound hbound hn
    have hpage := hfetch bound hbound
    -- what is left from the bound on
    generalize hleft : (rows.filter fun a => below (bound.map key) (key a)) = left
      at hn hpage ⊢
    by_cases hle : left.length ≤ limit
    · refine ⟨[left], ?_, List.flatten_singleton ..⟩
      rw [firstPage_of_le hle] at hpage
      simp [followCursors, hpage]
    · obtain ⟨page, a, rest, hfirst, hrest⟩ := firstPage_of_lt hlimit (not_le.mp hle)
      have hmem : a ∈ rows.filter fun a => below (bound.map key) (key a) := by
        rw [hleft, hrest]
        simp
      obtain ⟨ha, hbelow⟩ := List.mem_filter.mp hmem
      have hnext : (rows.filter fun b => below ((some a).map key) (key b)) = rest := by
        have hdesc : Descends key (page ++ a :: rest) := by
          rw [← hrest, ← hleft]
          exact hrows.sublist List.filter_sublist
        rw [← hdesc.filter_below, ← hrest, ← hleft, List.filter_filter]
        refine List.filter_congr fun b _ => ?_
        -- the new bound is below the old one
        cases bound with
        | none => simp [below]
        | some k =>
          simp only [below, Option.map_some, decide_eq_true_eq] at hbelow ⊢
          by_cases hb : key b < key a
          · simp [hb, hb.trans hbelow]
          · simp [hb]
      have hshort : (rows.filter fun b => below ((some a).map key) (key b)).length < n := by
        rw [hnext]
        have := congrArg List.length hrest
        simp only [List.length_append, List.length_cons] at this
        omega
      obtain ⟨pages, hpages, hflat⟩ := ih (some a) (by simpa using ha) hshort
      rw [hnext] at hflat
      refine ⟨(page ++ [a]) :: pages, ?_, ?_⟩
      · rw [hfirst] at hpage
        simp only [followCursors, hpage]
        simpa using hpages
      · rw [List.flatten_cons, hflat, hrest]
        simp

/-- **Following the cursors runs through the rows once.** -/
theorem followCursors_flatten (hlimit : 1 ≤ limit) (hrows : Descends key rows)
    (hfetch : Fetches key limit encode fetch rows) :
    ∃ n pages, followCursors fetch n none = some pages ∧ pages.flatten = rows := by
  obtain ⟨pages, hpages, hflat⟩ :=
    followCursors_from hlimit hrows hfetch (rows.length + 1) none (by simp) (by simp [below])
  exact ⟨_, pages, hpages, by simpa [below] using hflat⟩

end Walk

/-! ## Batches

The rows can also be read batch by batch without looking ahead: a batch that is not full is the
last one, and so is an empty one.
-/

section Batches

theorem below_trans {bound : Option K} {k k' : K} (h : below bound k = true)
    (h' : below (some k) k' = true) : below bound k' = true := by
  cases bound with
  | none => rfl
  | some b =>
    simp only [below, decide_eq_true_eq] at h h' ⊢
    exact h'.trans h

/-- Fewer rows are below a row than below a bound it is below itself. -/
theorem length_filter_below_lt {bound : Option α} {a : α} (ha : a ∈ rows)
    (hbelow : below (bound.map key) (key a) = true) :
    (rows.filter fun b => below (some (key a)) (key b)).length <
      (rows.filter fun b => below (bound.map key) (key b)).length := by
  have hsub : (rows.filter fun b => below (some (key a)) (key b)) =
      (rows.filter fun b => below (bound.map key) (key b)).filter
        fun b => below (some (key a)) (key b) := by
    rw [List.filter_filter]
    refine List.filter_congr fun b _ => ?_
    by_cases hb : below (some (key a)) (key b) = true
    · simp [hb, below_trans hbelow hb]
    · simp [hb]
  rw [hsub, List.length_filter_lt_length_iff_exists]
  exact ⟨a, List.mem_filter.mpr ⟨ha, hbelow⟩, by simp [below]⟩

variable (key) in
/-- The rows below the bound, in descending order. -/
def rowsBelow (rows : List α) (bound : Option α) : List α :=
  descending key (rows.filter fun a => below (bound.map key) (key a))

variable (key) in
/-- Reads at most `size` rows below the bound, again and again, each time from the last row on. -/
def batches (rows : List α) (size : Nat) (bound : Option α) : List (List α) :=
  let batch := (rowsBelow key rows bound).take size
  match _h : batch.getLast? with
  | none => []
  | some last =>
    if batch.length < size then [batch] else batch :: batches rows size (some last)
termination_by (rowsBelow key rows bound).length
decreasing_by
  have hmem := List.mem_of_mem_take (List.mem_of_getLast? _h)
  simp only [rowsBelow, (perm_descending _).length_eq]
  obtain ⟨hrow, hbelow⟩ := List.mem_filter.mp (mem_descending.mp hmem)
  exact length_filter_below_lt hrow hbelow

/-- **The batches run through the rows once.** -/
theorem batches_flatten {size : Nat} (hsize : 1 ≤ size) (hrows : (rows.map key).Nodup)
    (bound : Option α) : (batches key rows size bound).flatten = rowsBelow key rows bound := by
  generalize hleft : rowsBelow key rows bound = left
  have hdesc : Descends key left := by
    rw [← hleft]
    exact descends_descending (hrows.sublist (List.filter_sublist.map key))
  induction hn : left.length using Nat.strong_induction_on generalizing bound left with
  | _ n ih =>
    rw [batches, hleft]
    split
    · next hnone =>
      have htake : left.take size = [] := List.getLast?_eq_none_iff.mp hnone
      rcases List.take_eq_nil_iff.mp htake with hzero | hnil
      · omega
      · rw [hnil]
        rfl
    · next last hlast =>
      split
      · next hshort =>
        rw [List.length_take] at hshort
        rw [List.flatten_singleton, List.take_of_length_le (by omega)]
      · -- the rest comes after the last row of a full batch
        have hsplit : left = left.take size ++ left.drop size := (List.take_append_drop ..).symm
        obtain ⟨page, hpage⟩ := List.getLast?_eq_some_iff.mp hlast
        rw [hpage, List.append_assoc, List.singleton_append] at hsplit
        have hmem : last ∈ left := List.mem_of_mem_take (List.mem_of_getLast? hlast)
        have hmem' := hmem
        rw [← hleft] at hmem'
        obtain ⟨hrow, hbelow⟩ := List.mem_filter.mp (mem_descending.mp hmem')
        have hnext : rowsBelow key rows (some last) = left.drop size := by
          have hdesc' := hdesc
          rw [hsplit] at hdesc'
          have hrest := hdesc'.filter_below
          rw [← hsplit, ← hleft, rowsBelow, ← descending_filter (hrows.sublist
            (List.filter_sublist.map key)), List.filter_filter] at hrest
          rw [← hleft, rowsBelow, rowsBelow, ← hrest]
          congr 1
          refine List.filter_congr fun b _ => ?_
          by_cases hb : below (some (key last)) (key b) = true
          · simp [hb, below_trans hbelow hb]
          · simp [hb]
        have hlen := congrArg List.length hsplit
        simp only [List.length_append, List.length_cons] at hlen
        rw [List.flatten_cons, ih (left.drop size).length (by omega) (some last) _ hnext
          (hdesc.sublist (List.drop_sublist ..)) rfl, List.take_append_drop]

end Batches
end QueryCraft
