import Florid.Wirelink.Lease

/-! `ArmImpl::connectionState` against `s_commandToken`: two readers of one lease
record. -/
namespace Florid.Arm
open Transition Wirelink

inductive TransportConnectionState where
  | unknown | connected | disconnected | reconnecting | closed
  deriving DecidableEq, Repr

inductive ArmConnectionState where
  | ready | disconnected | reconnecting | controlUnavailable | closed
  deriving DecidableEq, Repr

/-- `none` is an arm without a transport. -/
def connectionState (transport : Option TransportConnectionState)
    (lease : FciControlLeaseSnapshot) : ArmConnectionState :=
  match transport with
  | none => .closed
  | some .disconnected => .disconnected
  | some .reconnecting => .reconnecting
  | some .closed => .closed
  | some .connected | some .unknown =>
    match lease.state with
    | .held | .renewQueued | .renewing => .ready
    | _ => .controlUnavailable

/-- `s_commandToken` with its upgrade gate, evaluated in one state. -/
def commandToken (w : World) : FciEndpointStatus × Nat :=
  if w.upgradeActive then (.busy, 0) else w.endpoint.commandToken

theorem connectionState_ready {transport : TransportConnectionState}
    (linked : transport = .connected ∨ transport = .unknown) (lease : FciControlLeaseSnapshot) :
    connectionState (some transport) lease = .ready ↔ lease.usable = true := by
  rcases linked with rfl | rfl <;> cases h : lease.state <;>
    simp [connectionState, FciControlLeaseSnapshot.usable, Endpoint.leaseUsable, h]

theorem commandToken_ok {w : World} (running : w.endpoint.running = true)
    (inactive : w.upgradeActive = false) :
    (commandToken w).1 = .ok ↔ w.endpoint.lease.usable = true ∧ w.endpoint.lease.token ≠ 0 := by
  simp only [commandToken, inactive, Endpoint.commandToken, running]
  by_cases usable : Endpoint.leaseUsable w.endpoint.lease.state = true <;>
    by_cases token : w.endpoint.lease.token = 0 <;>
      simp [FciControlLeaseSnapshot.usable, usable, token]

/-- The lease renewed in time. -/
def renewedLease : List Action := heldLease ++ .pass 5 :: ownerTurns 16 5 .ok

theorem renewedLease_runs : (exec machine renewedLease [] machine.init).isSome = true := by
  decide +kernel

/-- A renewal put back by a busy runtime: the lease expires at 10, and the next region
of the same pass starts the renewal and marks the expired lease as being renewed. -/
def revivedLease : List Action :=
  heldLease ++ .pass 5 :: ownerTurns 16 5 .busy ++ .pass 10 :: ownerTurns 14 10 .ok

theorem revivedLease_runs : (exec machine revivedLease [] machine.init).isSome = true := by
  decide +kernel

end Florid.Arm
