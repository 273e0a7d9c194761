import NpsSdk.Nwp.ComplexNode

/-! The timeout under which an action is run, at the three servers that run actions. -/
namespace Nps.Nwp
open Json (Value)
open Outcome

/-- What an action and the node that offers it say about timeouts. -/
structure TimeoutLimits where
  specDefault : Option Nat
  specMax : Option Nat
  nodeDefault : Nat
  nodeMax : Nat

namespace TimeoutLimits
variable (limits : TimeoutLimits)

def hardMax : Nat := min (limits.specMax.getD limits.nodeMax) limits.nodeMax

def fallback : Nat := limits.specDefault.getD limits.nodeDefault

/-- The fallback is taken as it is. -/
def clamp (requested : Nat) : Nat :=
  if requested = 0 then limits.fallback else min requested limits.hardMax

end TimeoutLimits

def requestedTimeout (body : Value) : Option Nat :=
  (body.asObject.bind (Json.get "timeout_ms")).bind Value.asU64

def narrow (requested : Option Nat) : Nat := requested.getD 0 % 2 ^ 32

namespace ActionServer

def timeoutLimits (spec : ActionSpec) (opt : ActionNodeOptions) : TimeoutLimits :=
  ⟨spec.timeoutMsDefault, spec.timeoutMsMax, opt.defaultTimeoutMs, opt.maxTimeoutMs⟩

theorem clampTimeout_eq (requested : Nat) (spec : ActionSpec) (opt : ActionNodeOptions) :
    clampTimeout requested spec opt = (timeoutLimits spec opt).clamp requested := rfl

def admission (opt : ActionNodeOptions) (body : Value) : Except ActionResponse (ActionSpec × Nat) := do
  let frame ← (ParsedActionFrame.fromJson body).mapError badRequest
  let spec ← checkFrame opt frame
  return (spec, clampTimeout frame.timeoutMs spec opt)

end ActionServer

theorem frame_timeout {body : Value} {frame : ActionServer.ParsedActionFrame}
    (read : ActionServer.ParsedActionFrame.fromJson body = .ok frame) :
    frame.timeoutMs = narrow (requestedTimeout body) := by
  unfold ActionServer.ParsedActionFrame.fromJson at read
  split at read
  · cases read
  · rename_i obj object
    dsimp only at read
    split at read
    · cases read
    · cases read
      rw [narrow, requestedTimeout, object, Option.bind_some]

namespace AnchorServer

structure AnchorActionSpec where
  timeoutMsDefault : Option Nat := none
  timeoutMsMax : Option Nat := none
  async_ : Bool := false

structure AnchorNodeOptions where
  actions : Assoc String AnchorActionSpec
  defaultTimeoutMs : Nat := 30000
  maxTimeoutMs : Nat := 300000

def timeoutLimits (spec : AnchorActionSpec) (opt : AnchorNodeOptions) : TimeoutLimits :=
  ⟨spec.timeoutMsDefault, spec.timeoutMsMax, opt.defaultTimeoutMs, opt.maxTimeoutMs⟩

def clampTimeout (requested : Nat) (spec : AnchorActionSpec) (opt : AnchorNodeOptions) : Nat :=
  (timeoutLimits spec opt).clamp requested

def paramsInvalid (message : String) : NodeResponse :=
  errorResp 400 "NPS-CLIENT-BAD-REQUEST" "NWP-ACTION-PARAMS-INVALID" message

/-- The checks of a request before the node's policies are asked. -/
def admission (opt : AnchorNodeOptions) (body : Value) : Except NodeResponse (AnchorActionSpec × Nat) := do
  let field (name : String) : Option Value := body.asObject.bind (Json.get name)
  let actionId ← (((field "action_id").bind Value.asStr).filter (· ≠ "")).elim
    (.error (paramsInvalid "invalid ActionFrame: missing action_id.")) .ok
  let spec ← (opt.actions.lookup actionId).elim
    (.error (errorResp 404 "NPS-CLIENT-NOT-FOUND" "NWP-ACTION-NOT-FOUND"
      s!"Unknown action_id '{actionId}'.")) .ok
  ensure (¬ (((field "async").bind ActionServer.asBool).getD false = true ∧ spec.async_ = false))
    (paramsInvalid s!"action '{actionId}' does not support async execution.")
  let timeoutMs := narrow ((field "timeout_ms").bind Value.asU64)
  return (spec, clampTimeout timeoutMs spec opt)

end AnchorServer

namespace ComplexNode

structure ComplexInvokeOptions extends ComplexNodeOptions where
  actions : Assoc String ActionServer.ActionSpec
  defaultTimeoutMs : Nat := 5000
  maxTimeoutMs : Nat := 300000

def timeoutLimits (spec : ActionServer.ActionSpec) (opt : ComplexInvokeOptions) : TimeoutLimits :=
  ⟨spec.timeoutMsDefault, spec.timeoutMsMax, opt.defaultTimeoutMs, opt.maxTimeoutMs⟩

def clampTimeout (requested : Nat) (spec : ActionServer.ActionSpec) (opt : ComplexInvokeOptions) :
    Nat :=
  (timeoutLimits spec opt).clamp requested

def badRequest (message : String) : NodeResponse :=
  errorResp 400 "NPS-CLIENT-BAD-REQUEST" "NWP-ACTION-PARAMS-INVALID" message

def admission (opt : ComplexInvokeOptions) (body : Value) :
    Except NodeResponse (ActionServer.ActionSpec × Nat) := do
  let frame ← (ActionServer.ParsedActionFrame.fromJson body).mapError badRequest
  let spec ← (opt.actions.lookup frame.actionId).elim
    (.error (errorResp 404 "NPS-CLIENT-NOT-FOUND" "NWP-ACTION-NOT-FOUND"
      s!"Unknown action_id '{frame.actionId}'.")) .ok
  ensure (frame.async_ = false) (badRequest ("Complex Node does not support async actions; " ++
    "invoke a downstream Action Node instead."))
  match frame.priority.filter fun p => p ≠ "low" && p ≠ "normal" && p ≠ "high" with
  | some p => .error (badRequest s!"priority '{p}' is invalid (allowed: low/normal/high).")
  | none => return (spec, clampTimeout frame.timeoutMs spec opt)

end ComplexNode

inductive ActionHost where
  | action (opt : ActionServer.ActionNodeOptions)
  | anchor (opt : AnchorServer.AnchorNodeOptions)
  | complex (opt : ComplexNode.ComplexInvokeOptions)

/-- A request is admitted under these limits, and the timeout is applied to it. -/
def ActionHost.Applies (body : Value) (limits : TimeoutLimits) (timeout : Nat) : ActionHost → Prop
  | action opt => ∃ spec, ActionServer.admission opt body = .ok (spec, timeout) ∧
      ActionServer.timeoutLimits spec opt = limits
  | anchor opt => ∃ spec, AnchorServer.admission opt body = .ok (spec, timeout) ∧
      AnchorServer.timeoutLimits spec opt = limits
  | complex opt => ∃ spec, ComplexNode.admission opt body = .ok (spec, timeout) ∧
      ComplexNode.timeoutLimits spec opt = limits

section Applied
variable {host : ActionHost} {body : Value} {limits : TimeoutLimits} {timeout : Nat}

/-- The three servers narrow and clamp alike. -/
theorem ActionHost.Applies.eq (applies : host.Applies body limits timeout) :
    timeout = limits.clamp (narrow (requestedTimeout body)) := by
  cases host with
  | action opt =>
    obtain ⟨spec, admitted, rfl⟩ := applies
    obtain ⟨frame, read, admitted⟩ := bind_ok.mp admitted
    obtain ⟨spec', -, same⟩ := bind_ok.mp admitted
    cases same
    rw [ActionServer.clampTimeout_eq, frame_timeout (mapError_ok.mp read)]
  | anchor opt =>
    obtain ⟨spec, admitted, rfl⟩ := applies
    obtain ⟨actionId, -, admitted⟩ := bind_ok.mp admitted
    obtain ⟨spec', -, admitted⟩ := bind_ok.mp admitted
    obtain ⟨-, -, same⟩ := bind_ok.mp admitted
    cases same
    rfl
  | complex opt =>
    obtain ⟨spec, admitted, rfl⟩ := applies
    obtain ⟨frame, read, admitted⟩ := bind_ok.mp admitted
    obtain ⟨spec', -, admitted⟩ := bind_ok.mp admitted
    obtain ⟨-, -, admitted⟩ := bind_ok.mp admitted
    split at admitted
    · cases admitted
    · cases admitted
      rw [ComplexNode.clampTimeout, frame_timeout (mapError_ok.mp read)]

/-- What a timeout is to be, and the request is read in full. -/
structure Bounded (requested : Option Nat) (limits : TimeoutLimits) (timeout : Nat) : Prop where
  positive : 0 < timeout
  capped : timeout ≤ min (limits.specMax.getD limits.nodeMax) limits.nodeMax
  whole : narrow requested = requested.getD 0

/-- The request has 32 bits, and what it is answered with, the maximum or the fallback, is
in order. -/
def SoundTimeout (requested : Option Nat) (limits : TimeoutLimits) : Prop :=
  requested.getD 0 < 2 ^ 32 ∧
    if requested.getD 0 = 0 then 0 < limits.fallback ∧ limits.fallback ≤ limits.hardMax
    else 0 < limits.hardMax

/-- The servers agree whatever is requested; the timeout is within the limits just for requests of 32
bits under sound limits. -/
theorem effective_timeout_iff (applies : host.Applies body limits timeout) :
    (∀ (other : ActionHost) (timeout' : Nat), other.Applies body limits timeout' →
        timeout' = timeout) ∧
      (Bounded (requestedTimeout body) limits timeout ↔ SoundTimeout (requestedTimeout body) limits) := by
  have clamped := applies.eq
  refine ⟨fun other timeout' applies' => by rw [applies'.eq, clamped], ?_⟩
  generalize requestedTimeout body = requested at clamped
  unfold SoundTimeout
  constructor
  · rintro ⟨positive, capped, whole⟩
    rw [whole, TimeoutLimits.clamp] at clamped
    refine ⟨whole ▸ Nat.mod_lt _ (by decide), ?_⟩
    split_ifs at clamped ⊢
    · exact ⟨clamped ▸ positive, clamped ▸ capped⟩
    · omega
  · rintro ⟨short, within⟩
    have whole : narrow requested = requested.getD 0 := Nat.mod_eq_of_lt short
    rw [whole, TimeoutLimits.clamp] at clamped
    split_ifs at clamped within with absent
    · exact ⟨clamped ▸ within.1, clamped ▸ within.2, whole⟩
    · exact ⟨by omega, clamped ▸ Nat.min_le_right .., whole⟩

end Applied

namespace Conversion
open AnchorServer

def spec : AnchorActionSpec := { timeoutMsMax := some 5000 }

def options : AnchorNodeOptions := { actions := AList.singleton "convert" spec }

def body (timeoutMs : Nat) : Value :=
  .object [("action_id", .string "convert"), ("timeout_ms", Json.integer timeoutMs)]

theorem applied {timeoutMs timeout : Nat}
    (admitted : admission options (body timeoutMs) = .ok (spec, timeout)) :
    (ActionHost.anchor options).Applies (body timeoutMs) (timeoutLimits spec options) timeout :=
  ⟨spec, admitted, rfl⟩

theorem long_capped : Bounded (requestedTimeout (body 999999)) (timeoutLimits spec options) 5000 :=
  (effective_timeout_iff (applied rfl)).2.mpr ⟨by decide, by decide⟩

theorem narrowed_away : ¬ ∀ (host : ActionHost) (body : Value) (limits : TimeoutLimits)
    (timeout : Nat), host.Applies body limits timeout →
      Bounded (requestedTimeout body) limits timeout := by
  intro bounded
  have whole := (bounded _ _ _ _ (applied (rfl : admission options (body (2 ^ 32 + 1)) = _))).whole
  exact absurd whole (by decide)

end Conversion
end Nps.Nwp
