import Mathlib.Data.Prod.Lex
import QueryCraft.Decimals
import QueryCraft.Keyset
import QueryCraft.Lookup
import QueryCraft.Pagination
import QueryCraft.QuotaConfig
import QueryCraft.QuotaCounter
import QueryCraft.Slices

/-! # Quota status

For the status page of the quotas, the counters of all users of a role are added up.  The users
are read from the database in batches, by their role and id, and the counters of a batch are
read from Redis in slices.  Neither batching may lose a user or count one twice:
`usage_by_role_naive` compares the result with the sums over all users, and says when a counter
is refused.

Redis is a function that returns the values of a list of keys, or fails.
-/
namespace QueryCraft

/-! ## Data -/

/-- A row of `users`, as far as it is read here. -/
structure UserRoleRow where
  id : Uuid
  roleId : Option Uuid

/-- The table of users, with its primary key. -/
structure UserTable where
  rows : List UserRoleRow
  distinct : (rows.map fun u => u.id.text).Nodup

/-- A page of quotas: each with the id of its role, which is unique. -/
structure QuotaPage where
  rows : List (Uuid × RoleQuota)
  distinct : (rows.map Prod.fst).Nodup

/-- `_DIMENSION_LIMITS`: the limit of a quota in a dimension. -/
def RoleQuota.limitOf (quota : RoleQuota) : QuotaDimension → Option Int
  | .queries => quota.dailyQueryLimit
  | .executions => quota.dailyExecutionLimit
  | .exports => quota.dailyExportLimit

/-- The dimensions of `_DIMENSION_LIMITS` that a quota limits. -/
def limitedDimensions (quota : RoleQuota) : List QuotaDimension :=
  [.queries, .executions, .exports].filter fun dimension => (quota.limitOf dimension).isSome

/-- The name of a dimension. -/
def QuotaDimension.name : QuotaDimension → String
  | .queries => "queries"
  | .executions => "executions"
  | .exports => "exports"

/-- Why the aggregation fails. -/
inductive StatusError where
  /-- `InvalidQuotaCounterError`. -/
  | invalidQuotaCounter
  /-- `QuotaCounterReadError`. -/
  | quotaCounterRead
  /-- A dictionary does not have the role. -/
  | keyError
deriving DecidableEq, Repr

/-- A value that Redis returns for a key. -/
inductive RawCounter where
  | str (text : List Char)
  | bytes (raw : List UInt8)

/-- `_CounterTarget`. -/
structure CounterTarget where
  key : String
  roleId : Uuid
  dimension : QuotaDimension

/-- What `usage_by_role` returns: a dictionary of the roles of the page. -/
abbrev Usage := Uuid → Option (QuotaDimension → Nat)

/-! ## Counters -/

/-- `raw_value.decode("ascii")` for bytes. -/
def RawCounter.decode : RawCounter → Option (List Char)
  | .str text => some text
  | .bytes raw =>
    if raw.all (· < 128) then some (raw.map fun b => Char.ofNat b.toNat) else none

/-- `str.isascii`. -/
def isAsciiText (text : List Char) : Bool := text.all fun c => c.toNat < 128

/-- `str.isdigit` of an ASCII text. -/
def isDigitText (text : List Char) : Bool := text ≠ [] && text.all Char.isDigit

/-- The digits that `int` takes. -/
def maxIntDigits : Nat := 4300

/-- `_counter_value`. -/
def counterValue : Option RawCounter → Except StatusError Nat
  | none => .ok 0
  | some raw =>
    match raw.decode with
    | none => .error .invalidQuotaCounter
    | some text =>
      if !isAsciiText text || !isDigitText text ||
          (1 < text.length && text.head? = some '0') then .error .invalidQuotaCounter
      else if maxIntDigits < text.length then .error .invalidQuotaCounter
      else .ok (Nat.ofDigitChars 10 text 0)

/-! ## Reading in batches -/

/-- The position of a user: the ids of the role and of the user.  Both are in ascending order,
so that the next position is below the last one in the reverse order. -/
def positionKey (p : Uuid × Uuid) : (String ×ₗ String)ᵒᵈ :=
  OrderDual.toDual (toLex (p.1.text, p.2.text))

/-- `WHERE role_id IN role_ids`. -/
def usersOfRoles (users : List UserRoleRow) (roleIds : List Uuid) : List (Uuid × Uuid) :=
  users.filterMap fun u => (u.roleId.filter (· ∈ roleIds)).map fun role => (role, u.id)

/-- `QuotaRepository.user_id_batches`. -/
def userIdBatches (users : List UserRoleRow) (roleIds : List Uuid) (batchSize : Nat) :
    List (List (Uuid × Uuid)) :=
  if roleIds = [] then [] else batches positionKey (usersOfRoles users roleIds) batchSize none

/-! ## Adding up -/

/-- The key of a counter. -/
def counterKey (date : String) (userId : Uuid) (dimension : QuotaDimension) : String :=
  "quota:" ++ userId.text ++ ":" ++ dimension.name ++ ":" ++ date

/-- `usage[role_id][dimension] += _counter_value(raw_value)`. -/
def addCounter (usage : Usage) (target : CounterTarget) (raw : Option RawCounter) :
    Except StatusError Usage :=
  match usage target.roleId with
  | none => .error .keyError
  | some counts => (counterValue raw).map fun n =>
    Function.update usage target.roleId
      (some (Function.update counts target.dimension (counts target.dimension + n)))

section
variable (mget : List String → Option (List (Option RawCounter))) (date : String)
  (redisBatch : Nat)

/-- `_add_counter_batch`. -/
def addCounterBatch (usage : Usage) (targets : List CounterTarget) : Except StatusError Usage :=
  match mget (targets.map (·.key)) with
  | none => .error .quotaCounterRead
  | some values =>
    if values.length ≠ targets.length then .error .invalidQuotaCounter
    else (targets.zip values).foldlM (fun usage x => addCounter usage x.1 x.2) usage

/-- The targets of a batch of users. -/
def counterTargets (limited : List (Uuid × List QuotaDimension)) :
    List (Uuid × Uuid) → Except StatusError (List CounterTarget)
  | [] => .ok []
  | (roleId, userId) :: users =>
    match limited.lookup roleId with
    | none => .error .keyError
    | some dimensions => (counterTargets limited users).map fun targets =>
      dimensions.map (fun dimension => ⟨counterKey date userId dimension, roleId, dimension⟩) ++
        targets

/-- `_add_user_batch`. -/
def addUserBatch (limited : List (Uuid × List QuotaDimension)) (usage : Usage)
    (users : List (Uuid × Uuid)) : Except StatusError Usage :=
  match counterTargets date limited users with
  | .error e => .error e
  | .ok targets => (slices redisBatch targets).foldlM (addCounterBatch mget) usage

/-- The roles of the page that are limited, with the dimensions. -/
def limitedRoles (page : QuotaPage) : List (Uuid × List QuotaDimension) :=
  (page.rows.map fun row => (row.1, limitedDimensions row.2)).filter fun x => x.2 ≠ []

/-- `usage_by_role`. -/
def usageByRole (batchSize : Nat) (users : UserTable) (page : QuotaPage) :
    Except StatusError Usage :=
  let usage : Usage := fun r => if r ∈ page.rows.map Prod.fst then some fun _ => 0 else none
  if limitedRoles page = [] then .ok usage
  else (userIdBatches users.rows ((limitedRoles page).map Prod.fst) batchSize).foldlM
    (addUserBatch mget date redisBatch (limitedRoles page)) usage

end

/-! ## The sums over all users -/

/-- The text of a value. -/
def RawCounter.text : RawCounter → List Char
  | .str text => text
  | .bytes raw => raw.map fun b => Char.ofNat b.toNat

/-- The value is absent, or the decimal text of a number of at most 4300 digits. -/
def IsCanonical : Option RawCounter → Prop
  | none => True
  | some raw => ∃ n, raw.text = Nat.toDigits 10 n ∧ raw.text.length ≤ 4300

/-- The number that a value stands for. -/
def counterNumber : Option RawCounter → Nat
  | none => 0
  | some raw => Nat.ofDigitChars 10 raw.text 0

/-- The sum of the counters of all users of a role. -/
def naiveUsage (counters : String → Option RawCounter) (date : String) (users : UserTable)
    (roleId : Uuid) (dimension : QuotaDimension) : Nat :=
  sumOver (fun u => counterNumber (counters (counterKey date u.id dimension)))
    (users.rows.filter fun u => u.roleId = some roleId)

/-! ## Canonical counters -/

theorem isAsciiText_of_digits {text : List Char} (h : ∀ c ∈ text, c.isDigit = true) :
    isAsciiText text = true := by
  rw [isAsciiText, List.all_eq_true]
  intro c hc
  exact decide_eq_true (digit_spec (h c hc)).1

theorem decode_of_ascii {raw : RawCounter} (h : isAsciiText raw.text = true) :
    raw.decode = some raw.text := by
  cases raw with
  | str text => rfl
  | bytes raw =>
    rw [RawCounter.decode, if_pos]
    · rfl
    · rw [List.all_eq_true]
      intro b hb
      rw [isAsciiText, List.all_eq_true] at h
      have := h (Char.ofNat b.toNat) (List.mem_map_of_mem hb)
      have hlt := b.toNat_lt
      have hchar : (Char.ofNat b.toNat).toNat = b.toNat := by
        have hvalid : b.toNat.isValidChar := .inl (by omega)
        rw [Char.ofNat, dif_pos hvalid]
        rfl
      have hb' : b.toNat < 128 := by
        rw [← hchar]
        exact of_decide_eq_true this
      exact decide_eq_true (UInt8.lt_iff_toNat_lt.mpr hb')

theorem text_of_decode {raw : RawCounter} {text : List Char} (h : raw.decode = some text) :
    raw.text = text := by
  cases raw with
  | str t => exact Option.some.inj h
  | bytes b =>
    rw [RawCounter.decode] at h
    split at h
    · exact Option.some.inj h
    · cases h

theorem counterValue_of_canonical {raw : Option RawCounter} (h : IsCanonical raw) :
    counterValue raw = .ok (counterNumber raw) := by
  cases raw with
  | none => rfl
  | some raw =>
    obtain ⟨n, htext, hlen⟩ := h
    have hdigits : ∀ c ∈ raw.text, c.isDigit = true := by
      intro c hc
      rw [htext] at hc
      exact Nat.isDigit_of_mem_toDigits (by decide) (by decide) hc
    have hascii := isAsciiText_of_digits hdigits
    have hdigit : isDigitText raw.text = true := by
      simp [isDigitText, htext]
      exact fun c => by
        intro hc
        exact Nat.isDigit_of_mem_toDigits (by decide) (by decide) hc
    have hzero : ¬ (1 < raw.text.length ∧ raw.text.head? = some '0') := by
      rintro ⟨hlong, hhead⟩
      rw [htext] at hlong hhead
      rw [head?_toDigits n hhead, Nat.toDigits_zero] at hlong
      simp at hlong
    have hbool : (!isAsciiText raw.text || !isDigitText raw.text ||
        (1 < raw.text.length && raw.text.head? = some '0')) = false := by
      simp only [hascii, hdigit, Bool.not_true, Bool.or_self, Bool.false_or]
      simpa using hzero
    simp only [counterValue, decode_of_ascii hascii, hbool, Bool.false_eq_true, if_false]
    rw [if_neg (by rw [maxIntDigits]; omega)]
    rfl

theorem counterValue_of_not_canonical {raw : Option RawCounter} (h : ¬ IsCanonical raw) :
    counterValue raw = .error .invalidQuotaCounter := by
  cases raw with
  | none => exact absurd trivial h
  | some raw =>
    simp only [counterValue]
    cases hdecode : raw.decode with
    | none => rfl
    | some text =>
      have htext := text_of_decode hdecode
      dsimp only
      split
      · rfl
      · next hcheck =>
        split
        · rfl
        · next hlen =>
          rw [Bool.not_eq_true] at hcheck
          simp only [Bool.or_eq_false_iff, Bool.not_eq_false', Bool.and_eq_false_iff,
            decide_eq_false_iff_not] at hcheck
          obtain ⟨⟨-, hdigit⟩, hzero⟩ := hcheck
          simp only [isDigitText, Bool.and_eq_true, decide_eq_true_eq, List.all_eq_true]
            at hdigit
          refine absurd ⟨Nat.ofDigitChars 10 text 0, ?_, ?_⟩ h
          · rw [htext, toDigits_ofDigitChars hdigit.1 hdigit.2]
            intro hlong hhead
            rcases hzero with hshort | hother
            · exact hshort hlong
            · exact hother hhead
          · rw [htext]
            exact Nat.not_lt.mp hlen

/-! ## One pass over all counters -/

section Pass
variable (counters : String → Option RawCounter) (date : String)

/-- The counter of a target is added. -/
def addTarget (usage : Usage) (target : CounterTarget) : Except StatusError Usage :=
  addCounter usage target (counters target.key)

/-- What a target adds to a sum. -/
def share (roleId : Uuid) (dimension : QuotaDimension) (target : CounterTarget) : Nat :=
  if target.roleId = roleId ∧ target.dimension = dimension then
    counterNumber (counters target.key)
  else 0

/-- The usage after the counters of some targets have been added. -/
def withShares (usage : Usage) (targets : List CounterTarget) : Usage := fun r =>
  (usage r).map fun counts dimension =>
    counts dimension + sumOver (share counters r dimension) targets

variable {counters}

theorem addTarget_ok {usage : Usage} {target : CounterTarget}
    (hrole : (usage target.roleId).isSome = true) (h : IsCanonical (counters target.key)) :
    addTarget counters usage target = .ok (withShares counters usage [target]) := by
  obtain ⟨counts, hcounts⟩ := Option.isSome_iff_exists.mp hrole
  simp only [addTarget, addCounter, hcounts, counterValue_of_canonical h, Except.map]
  congr 1
  funext r
  by_cases hr : r = target.roleId
  · subst hr
    rw [Function.update_self, withShares, hcounts, Option.map_some]
    congr 1
    funext dimension
    by_cases hd : dimension = target.dimension
    · subst hd
      simp [share]
    · rw [Function.update_of_ne hd]
      simp [share, Ne.symm hd]
  · rw [Function.update_of_ne hr, withShares]
    cases usage r with
    | none => rfl
    | some counts' => simp [share, Ne.symm hr]

theorem withShares_nil (usage : Usage) : withShares counters usage [] = usage := by
  funext r
  rw [withShares]
  cases usage r with
  | none => rfl
  | some counts => simp

theorem withShares_cons (usage : Usage) (target : CounterTarget) (targets : List CounterTarget) :
    withShares counters (withShares counters usage [target]) targets =
      withShares counters usage (target :: targets) := by
  funext r
  simp only [withShares]
  cases usage r with
  | none => rfl
  | some counts => simp [Nat.add_assoc]

theorem isSome_withShares {usage : Usage} {targets : List CounterTarget} {r : Uuid} :
    (withShares counters usage targets r).isSome = (usage r).isSome := by
  rw [withShares, Option.isSome_map]

/-- All counters are canonical: the shares of all targets are added. -/
theorem addTargets_ok (targets : List CounterTarget) :
    ∀ {usage : Usage}, (∀ t ∈ targets, (usage t.roleId).isSome = true) →
      (∀ t ∈ targets, IsCanonical (counters t.key)) →
      targets.foldlM (addTarget counters) usage = .ok (withShares counters usage targets) := by
  induction targets with
  | nil =>
    intro usage _ _
    rw [withShares_nil]
    rfl
  | cons t targets ih =>
    intro usage hroles hcanonical
    rw [List.forall_mem_cons] at hroles hcanonical
    rw [List.foldlM_cons, addTarget_ok hroles.1 hcanonical.1]
    have hrest : ∀ t' ∈ targets,
        (withShares counters usage [t] t'.roleId).isSome = true := by
      intro t' ht'
      rw [isSome_withShares]
      exact hroles.2 t' ht'
    show targets.foldlM (addTarget counters) (withShares counters usage [t]) = _
    rw [ih hrest hcanonical.2, withShares_cons]

/-- Some counter is not: the error is raised. -/
theorem addTargets_error (targets : List CounterTarget) :
    ∀ {usage : Usage}, (∀ t ∈ targets, (usage t.roleId).isSome = true) →
      (∃ t ∈ targets, ¬ IsCanonical (counters t.key)) →
      targets.foldlM (addTarget counters) usage = .error .invalidQuotaCounter := by
  induction targets with
  | nil =>
    rintro usage - ⟨t, ht, -⟩
    cases ht
  | cons t targets ih =>
    intro usage hroles hbad
    rw [List.forall_mem_cons] at hroles
    rw [List.foldlM_cons]
    by_cases ht : IsCanonical (counters t.key)
    · rw [addTarget_ok hroles.1 ht]
      have hrest : ∀ t' ∈ targets,
          (withShares counters usage [t] t'.roleId).isSome = true := by
        intro t' ht'
        rw [isSome_withShares]
        exact hroles.2 t' ht'
      obtain ⟨t', ht', hnot⟩ := hbad
      rcases List.mem_cons.mp ht' with rfl | ht'
      · exact absurd ht hnot
      · exact ih hrest ⟨t', ht', hnot⟩
    · obtain ⟨counts, hcounts⟩ := Option.isSome_iff_exists.mp hroles.1
      have herror : addTarget counters usage t = .error .invalidQuotaCounter := by
        simp [addTarget, addCounter, hcounts, counterValue_of_not_canonical ht, Except.map]
      rw [herror]
      rfl

/-! ## Batches and slices do not matter -/

/-- The targets of a user. -/
def targetsOf (limited : List (Uuid × List QuotaDimension)) (p : Uuid × Uuid) :
    List CounterTarget :=
  ((limited.lookup p.1).getD []).map fun dimension =>
    ⟨counterKey date p.2 dimension, p.1, dimension⟩

theorem counterTargets_eq {limited : List (Uuid × List QuotaDimension)}
    {users : List (Uuid × Uuid)} (h : ∀ p ∈ users, (limited.lookup p.1).isSome = true) :
    counterTargets date limited users = .ok (users.flatMap (targetsOf date limited)) := by
  induction users with
  | nil => rfl
  | cons p users ih =>
    rw [List.forall_mem_cons] at h
    obtain ⟨dimensions, hlookup⟩ := Option.isSome_iff_exists.mp h.1
    obtain ⟨roleId, userId⟩ := p
    simp only [counterTargets, hlookup, ih h.2, Except.map, List.flatMap_cons, targetsOf,
      Option.getD_some]

section Redis
variable {mget : List String → Option (List (Option RawCounter))}
  (hmget : ∀ keys, mget keys = some (keys.map counters))
include hmget

theorem addCounterBatch_eq (usage : Usage) (targets : List CounterTarget) :
    addCounterBatch mget usage targets = targets.foldlM (addTarget counters) usage := by
  rw [addCounterBatch, hmget, List.map_map]
  simp only [List.length_map, ne_eq, not_true_eq_false, if_false]
  rw [← List.map_prod_left_eq_zip, List.foldlM_map]
  rfl

theorem addSlices_eq (usage : Usage) (batches : List (List CounterTarget)) :
    batches.foldlM (addCounterBatch mget) usage =
      batches.flatten.foldlM (addTarget counters) usage := by
  induction batches generalizing usage with
  | nil => rfl
  | cons targets batches ih =>
    rw [List.foldlM_cons, List.flatten_cons, List.foldlM_append, addCounterBatch_eq hmget]
    congr 1
    funext usage'
    exact ih usage'

variable {redisBatch : Nat} (hredis : 1 ≤ redisBatch)
include hredis

theorem addUserBatch_eq {limited : List (Uuid × List QuotaDimension)} (usage : Usage)
    {users : List (Uuid × Uuid)} (h : ∀ p ∈ users, (limited.lookup p.1).isSome = true) :
    addUserBatch mget date redisBatch limited usage users =
      (users.flatMap (targetsOf date limited)).foldlM (addTarget counters) usage := by
  simp only [addUserBatch, counterTargets_eq date h]
  rw [addSlices_eq hmget, slices_flatten hredis]

/-- The batches of users are like one list of users. -/
theorem addUserBatches_eq {limited : List (Uuid × List QuotaDimension)}
    (batches : List (List (Uuid × Uuid)))
    (h : ∀ p ∈ batches.flatten, (limited.lookup p.1).isSome = true) (usage : Usage) :
    batches.foldlM (addUserBatch mget date redisBatch limited) usage =
      (batches.flatten.flatMap (targetsOf date limited)).foldlM (addTarget counters) usage := by
  induction batches generalizing usage with
  | nil => rfl
  | cons users batches ih =>
    rw [List.flatten_cons, List.forall_mem_append] at h
    rw [List.foldlM_cons, List.flatten_cons, List.flatMap_append, List.foldlM_append,
      addUserBatch_eq date hmget hredis usage h.1]
    congr 1
    funext usage'
    exact ih h.2 usage'

end Redis

/-! ## Roles and users -/

theorem nodup_limitedRoles (page : QuotaPage) : ((limitedRoles page).map Prod.fst).Nodup := by
  have hsub : ((limitedRoles page).map Prod.fst).Sublist (page.rows.map Prod.fst) := by
    have hmap : page.rows.map Prod.fst =
        (page.rows.map fun row => (row.1, limitedDimensions row.2)).map Prod.fst := by
      simp [Function.comp_def]
    rw [hmap]
    exact List.filter_sublist.map _
  exact page.distinct.sublist hsub

theorem mem_limitedRoles {page : QuotaPage} {x : Uuid × List QuotaDimension} :
    x ∈ limitedRoles page ↔
      ∃ quota, (x.1, quota) ∈ page.rows ∧ x.2 = limitedDimensions quota ∧ x.2 ≠ [] := by
  obtain ⟨r, dimensions⟩ := x
  simp only [limitedRoles, List.mem_filter, List.mem_map, Prod.mk.injEq, decide_eq_true_eq]
  constructor
  · rintro ⟨⟨row, hrow, rfl, rfl⟩, hne⟩
    exact ⟨row.2, hrow, rfl, hne⟩
  · rintro ⟨quota, hrow, rfl, hne⟩
    exact ⟨⟨(r, quota), hrow, rfl, rfl⟩, hne⟩

theorem mem_limitedDimensions {quota : RoleQuota} {dimension : QuotaDimension} :
    dimension ∈ limitedDimensions quota ↔ (quota.limitOf dimension).isSome = true := by
  cases dimension <;> simp [limitedDimensions]

theorem nodup_limitedDimensions (quota : RoleQuota) : (limitedDimensions quota).Nodup :=
  List.Nodup.filter _ (by decide)

/-- The dimensions that are looked up for a role of the page. -/
theorem lookup_limitedRoles {page : QuotaPage} {r : Uuid} {quota : RoleQuota}
    (h : (r, quota) ∈ page.rows) :
    ((limitedRoles page).lookup r).getD [] = limitedDimensions quota ∧
      (r ∈ (limitedRoles page).map Prod.fst ↔ limitedDimensions quota ≠ []) := by
  by_cases hne : limitedDimensions quota = []
  · have hnot : r ∉ (limitedRoles page).map Prod.fst := by
      intro hmem
      obtain ⟨x, hx, rfl⟩ := List.mem_map.mp hmem
      obtain ⟨quota', hrow, hdims, hsome⟩ := mem_limitedRoles.mp hx
      have hsame := lookup_of_mem page.distinct hrow
      rw [lookup_of_mem page.distinct h] at hsame
      rw [hdims, ← Option.some.inj hsame] at hsome
      exact hsome hne
    refine ⟨?_, by simp [hnot, hne]⟩
    cases hlookup : (limitedRoles page).lookup r with
    | none => rw [hne]; rfl
    | some dimensions =>
      obtain ⟨xs, ys, hsplit, -⟩ := List.lookup_eq_some_iff.mp hlookup
      refine absurd (List.mem_map.mpr ⟨(r, dimensions), ?_, rfl⟩) hnot
      rw [hsplit]
      simp
  · have hmem : (r, limitedDimensions quota) ∈ limitedRoles page :=
      mem_limitedRoles.mpr ⟨quota, h, rfl, hne⟩
    refine ⟨by rw [lookup_of_mem (nodup_limitedRoles page) hmem]; rfl, ?_⟩
    exact ⟨fun _ => hne, fun _ => List.mem_map.mpr ⟨_, hmem, rfl⟩⟩

theorem mem_usersOfRoles {users : List UserRoleRow} {roleIds : List Uuid} {p : Uuid × Uuid} :
    p ∈ usersOfRoles users roleIds ↔
      ∃ u ∈ users, u.roleId = some p.1 ∧ p.1 ∈ roleIds ∧ u.id = p.2 := by
  simp only [usersOfRoles, List.mem_filterMap, Option.map_eq_some_iff, Option.filter_eq_some_iff,
    decide_eq_true_eq]
  constructor
  · rintro ⟨u, hu, role, ⟨hrole, hmem⟩, rfl⟩
    exact ⟨u, hu, hrole, hmem, rfl⟩
  · rintro ⟨u, hu, hrole, hmem, hid⟩
    exact ⟨u, hu, p.1, ⟨hrole, hmem⟩, by rw [hid]⟩

/-- A user has one position. -/
theorem nodup_positions (users : UserTable) (roleIds : List Uuid) :
    ((usersOfRoles users.rows roleIds).map positionKey).Nodup := by
  have hsub : ∀ rows : List UserRoleRow, ((usersOfRoles rows roleIds).map fun p => p.2.text).Sublist
      (rows.map fun u => u.id.text) := by
    intro rows
    induction rows with
    | nil => exact List.Sublist.slnil
    | cons u rows ih =>
      rw [usersOfRoles, List.filterMap_cons]
      cases u.roleId.filter (· ∈ roleIds) with
      | none => exact ih.cons _
      | some role => exact ih.cons_cons _
  have htexts := users.distinct.sublist (hsub users.rows)
  have hmap : ((usersOfRoles users.rows roleIds).map fun p => p.2.text) =
      ((usersOfRoles users.rows roleIds).map positionKey).map
        fun k => (ofLex (OrderDual.ofDual k)).2 := by
    simp [positionKey, Function.comp_def]
  rw [hmap] at htexts
  exact htexts.of_map _

/-- All targets, in the order in which they are read. -/
def allTargets (users : UserTable) (page : QuotaPage) : List CounterTarget :=
  (rowsBelow positionKey (usersOfRoles users.rows ((limitedRoles page).map Prod.fst)) none).flatMap
    (targetsOf date (limitedRoles page))

theorem perm_rowsBelow_none (users : List UserRoleRow) (roleIds : List Uuid) :
    (rowsBelow positionKey (usersOfRoles users roleIds) none).Perm
      (usersOfRoles users roleIds) := by
  rw [rowsBelow]
  refine (perm_descending _).trans ?_
  simp [below]

theorem usageByRole_eq {mget : List String → Option (List (Option RawCounter))}
    (hmget : ∀ keys, mget keys = some (keys.map counters)) {redisBatch batchSize : Nat}
    (hredis : 1 ≤ redisBatch) (hsize : 1 ≤ batchSize) (users : UserTable) (page : QuotaPage) :
    usageByRole mget date redisBatch batchSize users page =
      (allTargets date users page).foldlM (addTarget counters)
        fun r => if r ∈ page.rows.map Prod.fst then some fun _ => 0 else none := by
  rw [usageByRole]
  by_cases hnone : limitedRoles page = []
  · have hempty : usersOfRoles users.rows [] = [] := by
      simp [usersOfRoles]
    rw [if_pos hnone, allTargets, hnone]
    simp [hempty, rowsBelow, descending]
    rfl
  · have hroles : (limitedRoles page).map Prod.fst ≠ [] := by simpa using hnone
    have hflat : (userIdBatches users.rows ((limitedRoles page).map Prod.fst) batchSize).flatten =
        rowsBelow positionKey (usersOfRoles users.rows ((limitedRoles page).map Prod.fst))
          none := by
      rw [userIdBatches, if_neg hroles, batches_flatten hsize (nodup_positions users _)]
    have hlookup : ∀ p ∈ (userIdBatches users.rows ((limitedRoles page).map Prod.fst)
        batchSize).flatten, ((limitedRoles page).lookup p.1).isSome = true := by
      intro p hp
      rw [hflat, (perm_rowsBelow_none _ _).mem_iff, mem_usersOfRoles] at hp
      obtain ⟨u, -, -, hrole, -⟩ := hp
      obtain ⟨x, hx, hx'⟩ := List.mem_map.mp hrole
      rw [← hx', lookup_of_mem (nodup_limitedRoles page) hx]
      rfl
    rw [if_neg hnone, addUserBatches_eq date hmget hredis _ hlookup, hflat, allTargets]

theorem mem_targetsOf {limited : List (Uuid × List QuotaDimension)} {p : Uuid × Uuid}
    {t : CounterTarget} : t ∈ targetsOf date limited p ↔
      ∃ dimension ∈ (limited.lookup p.1).getD [],
        t = ⟨counterKey date p.2 dimension, p.1, dimension⟩ := by
  simp only [targetsOf, List.mem_map, eq_comm]

/-- The targets are the limited dimensions of all users of the roles of the page. -/
theorem mem_allTargets {users : UserTable} {page : QuotaPage} {t : CounterTarget} :
    t ∈ allTargets date users page ↔
      ∃ u ∈ users.rows, ∃ quota, u.roleId = some t.roleId ∧ (t.roleId, quota) ∈ page.rows ∧
        (quota.limitOf t.dimension).isSome = true ∧ t.key = counterKey date u.id t.dimension := by
  simp only [allTargets, List.mem_flatMap, (perm_rowsBelow_none _ _).mem_iff, mem_usersOfRoles,
    mem_targetsOf]
  constructor
  · rintro ⟨p, ⟨u, hu, hrole, hlimited, hid⟩, dimension, hdimension, rfl⟩
    obtain ⟨x, hx, hx'⟩ := List.mem_map.mp hlimited
    obtain ⟨quota, hrow, -⟩ := mem_limitedRoles.mp hx
    rw [hx'] at hrow
    rw [(lookup_limitedRoles hrow).1, mem_limitedDimensions] at hdimension
    exact ⟨u, hu, quota, hrole, hrow, hdimension, by rw [hid]⟩
  · rintro ⟨u, hu, quota, hrole, hrow, hlimit, hkey⟩
    obtain ⟨hlookup, hmem⟩ := lookup_limitedRoles hrow
    have hdimension := mem_limitedDimensions.mpr hlimit
    refine ⟨(t.roleId, u.id), ⟨u, hu, hrole, ?_, rfl⟩, t.dimension, ?_, ?_⟩
    · exact hmem.mpr (List.ne_nil_of_mem hdimension)
    · rw [hlookup]
      exact hdimension
    · cases t
      simp_all

/-- What one user adds to a sum. -/
theorem sumOver_targetsOf {page : QuotaPage} {r roleId userId : Uuid} {quota : RoleQuota}
    (h : (roleId, quota) ∈ page.rows) (dimension : QuotaDimension) :
    sumOver (share counters r dimension) (targetsOf date (limitedRoles page) (roleId, userId)) =
      if roleId = r ∧ (quota.limitOf dimension).isSome = true then
        counterNumber (counters (counterKey date userId dimension))
      else 0 := by
  rw [targetsOf, (lookup_limitedRoles h).1, sumOver_map]
  by_cases hr : roleId = r
  · have hsingle := sumOver_single
      (f := fun d => counterNumber (counters (counterKey date userId d)))
      (nodup_limitedDimensions quota) dimension
    simp only [mem_limitedDimensions] at hsingle
    simp only [share, hr, true_and]
    exact hsingle
  · simp only [share, hr, false_and, if_false]
    induction limitedDimensions quota with
    | nil => rfl
    | cons d ds ih => rw [sumOver_cons, ih]

/-- **The sums are those over all users of the role.** -/
theorem sumOver_allTargets {users : UserTable} {page : QuotaPage} {r : Uuid} {quota : RoleQuota}
    (h : (r, quota) ∈ page.rows) (dimension : QuotaDimension) :
    sumOver (share counters r dimension) (allTargets date users page) =
      if (quota.limitOf dimension).isSome = true then naiveUsage counters date users r dimension
      else 0 := by
  have hother : ∀ {role : Uuid} {userId : Uuid},
      role ∈ (limitedRoles page).map Prod.fst →
      sumOver (share counters r dimension) (targetsOf date (limitedRoles page) (role, userId)) =
        if role = r ∧ (quota.limitOf dimension).isSome = true then
          counterNumber (counters (counterKey date userId dimension))
        else 0 := by
    intro role userId hrole
    obtain ⟨x, hx, rfl⟩ := List.mem_map.mp hrole
    obtain ⟨quota', hrow, -⟩ := mem_limitedRoles.mp hx
    rw [sumOver_targetsOf date hrow]
    by_cases hr : x.1 = r
    · rw [hr] at hrow
      have hsame := lookup_of_mem page.distinct hrow
      rw [lookup_of_mem page.distinct h] at hsame
      rw [Option.some.inj hsame]
    · simp [hr]
  rw [allTargets, sumOver_flatMap, sumOver_perm (perm_rowsBelow_none _ _), usersOfRoles,
    sumOver_filterMap]
  by_cases hlimit : (quota.limitOf dimension).isSome = true
  · rw [if_pos hlimit, naiveUsage, sumOver_filter]
    refine sumOver_congr fun u _ => ?_
    cases hrole : u.roleId with
    | none => simp
    | some role =>
      by_cases hmem : role ∈ (limitedRoles page).map Prod.fst
      · have hshare : sumOver (share counters r dimension)
            (targetsOf date (limitedRoles page) (role, u.id)) =
            if role = r then counterNumber (counters (counterKey date u.id dimension)) else 0 := by
          rw [hother hmem]
          simp [hlimit]
        simpa [Option.filter, hmem] using hshare
      · have hne : role ≠ r := by
          rintro rfl
          rw [(lookup_limitedRoles h).2] at hmem
          exact hmem (List.ne_nil_of_mem (mem_limitedDimensions.mpr hlimit))
        simp only [Option.filter, hmem, decide_false, Bool.false_eq_true, if_false, Option.map_none,
          Option.getD_none]
        simp [hne]
  · rw [if_neg hlimit]
    have hzero : ∀ u ∈ users.rows, (((u.roleId.filter (· ∈ (limitedRoles page).map Prod.fst)).map
        fun role => (role, u.id)).map fun x => sumOver (share counters r dimension)
          (targetsOf date (limitedRoles page) x)).getD 0 = 0 := by
      intro u _
      cases hrole : u.roleId.filter (· ∈ (limitedRoles page).map Prod.fst) with
      | none => rfl
      | some role =>
        obtain ⟨-, hmem⟩ := Option.filter_eq_some_iff.mp hrole
        rw [Option.map_some, Option.map_some, Option.getD_some, hother (of_decide_eq_true hmem),
          if_neg fun hboth => hlimit hboth.2]
    rw [sumOver_congr hzero]
    induction users.rows with
    | nil => rfl
    | cons u rows ih => rw [sumOver_cons, ih]

end Pass

/-- **The batched aggregation is the naive sum.** -/
theorem usage_by_role_naive {counters : String → Option RawCounter}
    {mget : List String → Option (List (Option RawCounter))}
    (hmget : ∀ keys, mget keys = some (keys.map counters)) {redisBatch batchSize : Nat}
    (hredis : 1 ≤ redisBatch) (hsize : 1 ≤ batchSize) (date : String) (users : UserTable)
    (page : QuotaPage) :
    (usageByRole mget date redisBatch batchSize users page = .error .invalidQuotaCounter ↔
      ∃ u ∈ users.rows, ∃ r quota dimension, u.roleId = some r ∧ (r, quota) ∈ page.rows ∧
        (quota.limitOf dimension).isSome = true ∧
        ¬ IsCanonical (counters (counterKey date u.id dimension))) ∧
    (usageByRole mget date redisBatch batchSize users page ≠ .error .invalidQuotaCounter →
      ∃ usage, usageByRole mget date redisBatch batchSize users page = .ok usage ∧
        ∀ r quota, (r, quota) ∈ page.rows → ∃ counts, usage r = some counts ∧
          ∀ dimension, counts dimension =
            if (quota.limitOf dimension).isSome = true then
              naiveUsage counters date users r dimension
            else 0) := by
  have hroles : ∀ t ∈ allTargets date users page,
      ((fun r => if r ∈ page.rows.map Prod.fst then some fun _ => 0 else none : Usage)
        t.roleId).isSome = true := by
    intro t ht
    obtain ⟨u, -, quota, -, hrow, -⟩ := (mem_allTargets date).mp ht
    exact Option.isSome_of_eq_some (if_pos (List.mem_map.mpr ⟨_, hrow, rfl⟩))
  rw [usageByRole_eq date hmget hredis hsize]
  by_cases hbad : ∃ t ∈ allTargets date users page, ¬ IsCanonical (counters t.key)
  · rw [addTargets_error _ hroles hbad]
    refine ⟨⟨fun _ => ?_, fun _ => rfl⟩, fun hne => absurd rfl hne⟩
    obtain ⟨t, ht, hnot⟩ := hbad
    obtain ⟨u, hu, quota, hrole, hrow, hlimit, hkey⟩ := (mem_allTargets date).mp ht
    exact ⟨u, hu, t.roleId, quota, t.dimension, hrole, hrow, hlimit, hkey ▸ hnot⟩
  · have hcanonical : ∀ t ∈ allTargets date users page, IsCanonical (counters t.key) := by
      intro t ht
      by_contra hnot
      exact hbad ⟨t, ht, hnot⟩
    rw [addTargets_ok _ hroles hcanonical]
    refine ⟨⟨fun herror => (by cases herror), ?_⟩, fun _ => ⟨_, rfl, ?_⟩⟩
    · rintro ⟨u, hu, r, quota, dimension, hrole, hrow, hlimit, hnot⟩
      exact absurd (hcanonical ⟨counterKey date u.id dimension, r, dimension⟩
        ((mem_allTargets date).mpr ⟨u, hu, quota, hrole, hrow, hlimit, rfl⟩)) hnot
    · intro r quota hrow
      refine ⟨_, by rw [withShares, if_pos (List.mem_map.mpr ⟨_, hrow, rfl⟩), Option.map_some], ?_⟩
      intro dimension
      rw [Nat.zero_add, sumOver_allTargets date hrow]

/-- Two users of a role that is limited to ten queries. -/
def twoUsers : UserTable where
  rows := [⟨⟨"0b7a3a5e-5d0c-4f7e-9c53-6a2f0c1d9e01", by decide⟩,
      some ⟨"c0ffee00-0000-4000-8000-00000000000a", by decide⟩⟩,
    ⟨⟨"0b7a3a5e-5d0c-4f7e-9c53-6a2f0c1d9e02", by decide⟩,
      some ⟨"c0ffee00-0000-4000-8000-00000000000a", by decide⟩⟩]
  distinct := by decide

def tenQueries : QuotaPage where
  rows := [(⟨"c0ffee00-0000-4000-8000-00000000000a", by decide⟩, ⟨some 10, none, none⟩)]
  distinct := List.nodup_singleton _

/-- Every key holds 3. -/
def threes : String → Option RawCounter := fun _ => some (.str ['3'])

theorem usage_by_role_twoUsers : ∃ usage,
    usageByRole (fun keys => some (keys.map threes)) "2026-03-01" 1 1 twoUsers tenQueries =
      .ok usage ∧ ∃ counts, usage ⟨"c0ffee00-0000-4000-8000-00000000000a", by decide⟩ =
        some counts ∧ counts .queries = 6 ∧ counts .exports = 0 := by
  obtain ⟨hinvalid, hsums⟩ := @usage_by_role_naive threes _ (fun _ => rfl) _ _
    (Nat.le_refl 1) (Nat.le_refl 1) "2026-03-01" twoUsers tenQueries
  obtain ⟨usage, hok, hcounts⟩ := hsums (by
    rw [ne_eq, hinvalid]
    rintro ⟨u, -, r, quota, dimension, -, -, -, hnot⟩
    exact hnot ⟨3, by decide, by decide⟩)
  obtain ⟨counts, hrole, hsum⟩ := hcounts _ _ (List.mem_singleton.mpr rfl)
  exact ⟨usage, hok, counts, hrole, by rw [hsum]; decide +kernel, by rw [hsum]; rfl⟩

end QueryCraft
