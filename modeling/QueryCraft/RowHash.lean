import QueryCraft.AuditLog

/-! # What a row hash covers

`_compute_row_hash` is SHA-256 of the canonical text of a payload with the link behind it.  The
text says every column and the link (`hashedText_inj`), as long as the context is one that a
`JSONB` column holds, and it says the actor whatever the context is (`hashedText_actorId`).  A
SHA-256 without collisions therefore gives a row hash without collisions.
-/
namespace QueryCraft

open PrefixCode

/-- The payload with its keys in order. -/
def Payload.fields (p : Payload) : List (String × Json) :=
  [("action_type", .str p.actionType),
   ("actor_id", nullableText p.actorId),
   ("actor_identity", nullableText p.actorIdentity),
   ("context", p.context),
   ("outcome", .str p.outcome),
   ("resource_id", nullableText p.resourceId),
   ("resource_type", nullableText p.resourceType),
   ("sequence_number", .int p.sequenceNumber),
   ("timestamp", .str (String.ofList p.timestamp.isoformat))]

theorem canonicalJson_payload (p : Payload) :
    canonicalJson p.json = canonicalJson (.obj p.fields) := by
  simp only [Payload.json, Payload.fields, canonicalJson, canonicalFields,
    List.insertionSort_cons, List.insertionSort_nil, List.orderedInsert, String.reduceLE, if_true,
    if_false]

theorem nullableText_inj {s t : Option String} (h : nullableText s = nullableText t) : s = t := by
  cases s with
  | none =>
    cases t with
    | none => rfl
    | some t => cases h
  | some s =>
    cases t with
    | none => cases h
    | some t => exact congrArg some (Json.str.inj h)

theorem stored_nullableText (s : Option String) : (nullableText s).Stored := by
  cases s <;> rfl

/-- The context of a marker is as a `JSONB` column holds it. -/
theorem PurgeBoundary.stored_context (b : PurgeBoundary) : b.context.Stored := by
  rw [PurgeBoundary.context, stored_obj]
  refine ⟨?_, ?_⟩
  · show List.Pairwise (· < ·) ["first_surviving_prev_hash", "first_surviving_seq",
      "last_retained_hash", "last_retained_seq", "purged_count", "purged_from_seq",
      "purged_to_seq", "retention_months"]
    decide
  · intro f hf
    simp only [List.mem_cons, List.not_mem_nil, or_false] at hf
    rcases hf with rfl | rfl | rfl | rfl | rfl | rfl | rfl | rfl <;>
      first | rfl | cases b.firstSurviving <;> rfl

namespace Payload
variable {p p' : Payload}

theorem keys_fields (p : Payload) : (p.fields.map (·.1)).Pairwise (· < ·) := by
  show List.Pairwise (· < ·) ["action_type", "actor_id", "actor_identity", "context", "outcome",
    "resource_id", "resource_type", "sequence_number", "timestamp"]
  decide

theorem stored_fields (h : p.context.Stored) : (Json.obj p.fields).Stored := by
  refine stored_obj.mpr ⟨p.keys_fields, ?_⟩
  have hactor := stored_nullableText p.actorId
  have hidentity := stored_nullableText p.actorIdentity
  have hid := stored_nullableText p.resourceId
  have htype := stored_nullableText p.resourceType
  intro f hf
  simp only [fields, List.mem_cons, List.not_mem_nil, or_false] at hf
  rcases hf with rfl | rfl | rfl | rfl | rfl | rfl | rfl | rfl | rfl <;> first | assumption | rfl

theorem fields_inj (h : p.fields = p'.fields) : p = p' := by
  simp only [fields, List.cons.injEq, Prod.mk.injEq, Json.str.injEq, Json.int.injEq, true_and,
    and_true, String.ofList_inj] at h
  obtain ⟨haction, hactor, hidentity, hcontext, houtcome, hid, htype, hnumber, htime⟩ := h
  cases p
  cases p'
  obtain rfl := nullableText_inj hactor
  obtain rfl := nullableText_inj hidentity
  obtain rfl := nullableText_inj hid
  obtain rfl := nullableText_inj htype
  obtain rfl := DateTime.isoformat_inj htime
  simp_all

/-- **The hashed text determines the payload and the link.** -/
theorem hashedText_inj (hp : p.context.Stored) (hp' : p'.context.Stored) {link link' : String}
    (h : canonicalJson p.json ++ link.toList = canonicalJson p'.json ++ link'.toList) :
    p = p' ∧ link = link' := by
  rw [canonicalJson_payload, canonicalJson_payload] at h
  obtain ⟨hfields, hlink⟩ := canonicalJson_obj_inj (stored_fields hp) (stored_fields hp') h
  exact ⟨fields_inj hfields, String.toList_inj.mp hlink⟩

/-- The text starts with the action and the actor. -/
theorem canonicalJson_start (p : Payload) : ∃ rest, canonicalJson p.json =
    '{' :: (fieldText ("action_type", .str p.actionType) ++
      ',' :: (fieldText ("actor_id", nullableText p.actorId) ++ ',' :: rest)) := by
  refine ⟨?_, ?_⟩
  rotate_left
  · rw [canonicalJson_payload, canonicalJson_obj p.keys_fields]
    rfl

/-- **The hashed text determines the actor**, whatever the context is. -/
theorem hashedText_actorId {r r' : List Char}
    (h : canonicalJson p.json ++ r = canonicalJson p'.json ++ r') : p.actorId = p'.actorId := by
  obtain ⟨rest, hp⟩ := p.canonicalJson_start
  obtain ⟨rest', hp'⟩ := p'.canonicalJson_start
  rw [hp, hp', List.cons_append, List.cons_append, List.append_assoc, List.append_assoc] at h
  have hends : ∀ r : List Char, Ends (',' :: r) := fun r => ends_cons (by decide) r
  have hstored : ∀ s : Option String, (nullableText s).Stored := stored_nullableText
  obtain ⟨-, htail⟩ := fieldText_determinedAt (f := ("action_type", Json.str p.actionType))
    (Json.Stored.determinedAt rfl) ("action_type", .str p'.actionType) _ _ rfl (hends _) (hends _)
    (List.tail_eq_of_cons_eq h)
  have hactor : fieldText ("actor_id", nullableText p.actorId) ++ ',' :: rest ++ r =
      fieldText ("actor_id", nullableText p'.actorId) ++ ',' :: rest' ++ r' :=
    List.tail_eq_of_cons_eq htail
  rw [List.append_assoc, List.append_assoc] at hactor
  obtain ⟨hfield, -⟩ := fieldText_determinedAt (f := ("actor_id", nullableText p.actorId))
    (Json.Stored.determinedAt (hstored _)) ("actor_id", nullableText p'.actorId) _ _ (hstored _)
    (hends _) (hends _) hactor
  exact nullableText_inj (congrArg (·.2) hfield)

end Payload

section Injective
variable {env : AuditEnv}

/-- A hash without collisions gives a row hash without collisions. -/
theorem computeRowHash_inj (hsha : Function.Injective env.sha256) {p p' : Payload}
    {link link' : String} (hp : p.context.Stored) (hp' : p'.context.Stored)
    (h : env.computeRowHash p link = env.computeRowHash p' link') : p = p' ∧ link = link' :=
  Payload.hashedText_inj hp hp' (hsha h)

theorem computeRowHash_actorId (hsha : Function.Injective env.sha256) {p p' : Payload}
    {link link' : String} (h : env.computeRowHash p link = env.computeRowHash p' link') :
    p.actorId = p'.actorId :=
  Payload.hashedText_actorId (hsha h)

end Injective

end QueryCraft
