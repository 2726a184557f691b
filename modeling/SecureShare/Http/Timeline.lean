import SecureShare.Delivery.Listing
import SecureShare.Http.Audit
import SecureShare.Library.MostRecent

/-!
# The timeline of a delivery

The page of a delivery shows its audit events. It takes them from the most recent events of
all deliveries.
-/
namespace SecureShare.Http
open Go Library
open Library.Interleaving (Reply)
open Delivery (UUID Table Row)

/-- A row of `audit_events`. -/
structure LoggedEvent where
  id : UUID
  event : AuditEvent
  deriving DecidableEq, Repr

def LoggedEvent.occurredAt (e : LoggedEvent) : ℤ := e.event.occurredAt

def LoggedEvent.isOf (id : UUID) (e : LoggedEvent) : Bool := e.event.deliveryID = some id

structure ActivityEvent where
  eventID : UUID
  type : Text
  deliveryID : UUID
  title : Text
  recipientReference : Text
  status : Text
  actorID : Text
  result : Text
  ipHash : Text
  requestID : Text
  occurredAt : ℤ
  consumedAt : Option ℤ
  revokedAt : Option ℤ
  deriving DecidableEq, Repr

/-- The SELECT list of `RecentActivity`, with the delivery that is joined. -/
def activity (t : Table) (e : LoggedEvent) : ActivityEvent :=
  let delivery : Option Row := e.event.deliveryID.bind t.find
  { eventID := e.id
    type := e.event.eventType
    deliveryID := e.event.deliveryID.getD 0
    title := (delivery.bind Row.title).getD []
    recipientReference := (delivery.bind Row.recipientReference).getD []
    status := (delivery.map fun r => r.status.text).getD []
    actorID := e.event.actorID.getD []
    result := e.event.result
    ipHash := e.event.ipHash.getD []
    requestID := e.event.requestID.getD []
    occurredAt := e.event.occurredAt
    consumedAt := delivery.bind Row.consumedAt
    revokedAt := delivery.bind Row.revokedAt }

/-- `RecentActivity`; `arranged` are the rows as the database arranges them. -/
def recentActivity (reply : Reply) (t : Table) (arranged : List LoggedEvent) (limit : ℤ) :
    Option (List ActivityEvent) :=
  let limit := if limit ≤ 0 ∨ 50 < limit then 8 else limit
  if reply = .answered then some ((arranged.take limit.toNat).map (activity t)) else none

/-- The timeline of `handleSecretPage`, which has found the delivery. -/
def secretTimeline (reply : Reply) (t : Table) (arranged : List LoggedEvent) (id : UUID) :
    Option (List ActivityEvent) :=
  (t.find id).map fun _ =>
    ((recentActivity reply t arranged 20).getD []).filter fun event => event.deliveryID = id

/-- However the database arranges equal times, the timeline is that of the most recent events
of the delivery. -/
def TimelineComplete (t : Table) (log : List LoggedEvent) (id : UUID) : Prop :=
  ∀ arranged, Arranged LoggedEvent.occurredAt log arranged →
    ∃ shown, secretTimeline .answered t arranged id = some (shown.map (activity t)) ∧
      MostRecent 20 LoggedEvent.occurredAt (log.filter (LoggedEvent.isOf id)) shown

section
variable {t : Table} {log arranged : List LoggedEvent} {id : UUID}

theorem deliveryID_activity (hid : id ≠ 0) (t : Table) (e : LoggedEvent) :
    decide ((activity t e).deliveryID = id) = e.isOf id := by
  rw [activity, LoggedEvent.isOf]
  cases e.event.deliveryID with
  | none => simpa using hid.symm
  | some d => simp

/-- What the page shows. -/
theorem secretTimeline_eq (hid : id ≠ 0) (hfound : (t.find id).isSome)
    (arranged : List LoggedEvent) :
    secretTimeline .answered t arranged id =
      some (((arranged.take 20).filter (LoggedEvent.isOf id)).map (activity t)) := by
  obtain ⟨r, hr⟩ := Option.isSome_iff_exists.mp hfound
  have hkind : (fun event : ActivityEvent => decide (event.deliveryID = id)) ∘ activity t =
      LoggedEvent.isOf id := funext (deliveryID_activity hid t)
  rw [secretTimeline, hr, Option.map_some, recentActivity, if_pos rfl, if_neg (by decide),
    Option.getD_some, List.filter_map, hkind]
  rfl

/-- The timeline of a delivery is complete exactly if no more recent events of others crowd its
most recent events out. -/
theorem timeline_complete_iff (hid : id ≠ 0) (hfound : (t.find id).isSome) :
    TimelineComplete t log id ↔
      Unobstructed 20 LoggedEvent.occurredAt (LoggedEvent.isOf id) log := by
  rw [← filter_take_mostRecent_iff]
  constructor
  · intro h arranged harranged
    obtain ⟨shown, hshown, hrecent⟩ := h arranged harranged
    apply mostRecent_of_length harranged
    rw [secretTimeline_eq hid hfound] at hshown
    have hlength := congrArg List.length (Option.some.inj hshown)
    rw [List.length_map, List.length_map] at hlength
    rw [hlength, hrecent.length, List.countP_eq_length_filter]
  · intro h arranged harranged
    exact ⟨_, secretTimeline_eq hid hfound arranged, h arranged harranged⟩

end

def sampleLogged (id : UUID) (deliveryID : Option UUID) (occurredAt : ℤ) : LoggedEvent :=
  ⟨id, ⟨deliveryID, none, "secret.created".toList, "success".toList, none, none, occurredAt⟩⟩

/-- Events of no delivery, the newest first, and then one of the delivery with the ID 1. -/
def sampleLog (others : ℕ) : List LoggedEvent :=
  ((List.range others).reverse.map fun n => sampleLogged (BitVec.ofNat 128 (n + 2)) none (n + 1)) ++
    [sampleLogged 1 (some 1) 0]

theorem timeline_complete_iff_sample : TimelineComplete Delivery.sampleListed (sampleLog 19) 1 :=
  (timeline_complete_iff (by decide) (by decide +kernel)).mpr
    (by unfold Unobstructed; decide +kernel)

/-- Twenty later events of no delivery, and the page shows none of the delivery. -/
theorem timeline_crowded_out : ¬TimelineComplete Delivery.sampleListed (sampleLog 20) 1 := by
  intro h
  obtain ⟨shown, hshown, hrecent⟩ := h (sampleLog 20) ⟨List.Perm.refl _, by decide +kernel⟩
  have hempty : secretTimeline .answered Delivery.sampleListed (sampleLog 20) 1 = some [] := by
    decide +kernel
  rw [hempty] at hshown
  have hnil : shown = [] := List.map_eq_nil_iff.mp (Option.some.inj hshown).symm
  have hlength := hrecent.length
  rw [hnil] at hlength
  exact absurd hlength (by decide +kernel)

end SecureShare.Http
