/-
ParmeliaLinks/Jobs/EndpointIsolation.lean

One run of the job `webhook_delivery` against endpoints that fail.

The loop over the deliveries of an event ends with the first one that fails, so what comes
after it in the list is not attempted by this run.  What a run attempts is a matter of the
claimable deliveries in the order of the list: those up to the first failure (`attempted`).

Nothing else happens during the run, and the database answers.
-/
import ParmeliaLinks.Jobs.WebhookAccounting
import ParmeliaLinks.Lib.Alone

namespace ParmeliaLinks.Jobs.Webhooks

/-! ### A run -/

/-- What becomes of the delivery to an endpoint: its secret cannot be opened, the request fails,
or there is a response. -/
inductive Fate
  | unsigned
  | unreachable
  | responds (status : Nat)

/-- The delivery goes through. -/
def Fate.succeeds : Fate → Bool
  | .responds status => responseOk status
  | _ => false

/-- The request goes out. -/
def Fate.signed : Fate → Bool
  | .unsigned => false
  | _ => true

/-- The delivery that was claimed last. -/
def World.current (w : World) : Option WebhookId := w.claims.getLast?.map (·.id)

def answer (fate : WebhookId → Fate) : WebhookOp → World → Answer
  | .prepare, w =>
    if w.current.all fun id => (fate id).signed then {}
    else { delivery := .lost "INVALID_WEBHOOK_SECRET" }
  | .response id _, _ =>
    match fate id with
    | .responds status => { status }
    | _ => { delivery := .lost "Webhook network error" }
  | _, _ => {}

/-- An operation of a run in which nothing else happens. -/
def execAlone (fate : WebhookId → Fate) (o : WebhookOp) (w : World) : o.Reply × World :=
  o.exec 0 (answer fate o w) w

/-- The lease of a delivery is free. -/
def World.free (w : World) (d : WebhookDelivery) : Bool := World.claimable d.id w.clock d

section one

variable {fate : WebhookId → Fate} {w w' : World} {d d' : WebhookDelivery}

/-- The world after the claim. -/
def World.claimed (w : World) (d : WebhookDelivery) : World :=
  (w.claim 0 d.id d.attemptCount (w.clock + 30000) w.clock).2

/-- A delivery was tried: its row alone has changed, and a request went out or not. -/
structure Tried (w w' : World) (id : WebhookId) (sent : Bool) : Prop where
  clock : w'.clock = w.clock
  sends : w'.sends.map (·.id) = w.sends.map (·.id) ++ if sent then [id] else []
  others : ∀ d ∈ w.deliveries, d.id ≠ id → d ∈ w'.deliveries

theorem Tried.trans {w'' : World} {id : WebhookId} {sent : Bool} (h : Tried w w' id sent)
    (h' : Tried w' w'' id false) : Tried w w'' id sent where
  clock := h'.clock.trans h.clock
  sends := by rw [h'.sends, h.sends]; exact List.append_nil _
  others d hd other := h'.others d (h.others d hd other) other

theorem Tried.after {w'' : World} {id : WebhookId} {sent : Bool} (h : Tried w w' id false)
    (h' : Tried w' w'' id sent) : Tried w w'' id sent where
  clock := h'.clock.trans h.clock
  sends := by rw [h'.sends, h.sends]; simp
  others d hd other := h'.others d (h.others d hd other) other

/-- The claim, the request and the record of a delivery. -/
def World.answered (w : World) (d : WebhookDelivery) (delivered : Bool) : World :=
  ((w.claimed d).send d.id w.drawn).record d.id w.drawn (d.attemptCount + 1) delivered

end one

/-! ### The list -/

section list

variable (fate : WebhookId → Fate)

/-- The requests of a run whose claimable deliveries are these: it ends with the first one that
does not go through. -/
def attempted : List WebhookDelivery → List WebhookId
  | [] => []
  | d :: deliveries =>
    (if (fate d.id).signed then [d.id] else []) ++
      if (fate d.id).succeeds then attempted deliveries else []

end list

end ParmeliaLinks.Jobs.Webhooks
