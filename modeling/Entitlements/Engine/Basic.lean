import Entitlements.Settings.Derived
import Entitlements.Audit.Event
import Entitlements.Engine.Identifiers
import Entitlements.Store.Row
import Entitlements.Paging

/-!
The engine and the calls on it. An engine is its store together with what else a later call can
show: the identifiers that are next, the clock, and the events that wait to be collected. A call
reads the environment it runs in, may fail, and turns one engine into another.

A call that fails keeps what it had written before, because each write stands on its own; a
transaction gives up all of it. Identifiers count as used either way.
-/

namespace Entitlements

open Time

/-! ### Environment and engine -/

/-- Where published events go: into the audit log, onto a list that the caller collects, nowhere, or
to a receiver that refuses each of them. -/
inductive Sink where
  | audit
  | outbox
  | refusing
  | none
  deriving DecidableEq, Repr

structure Environment where
  settings : Settings
  features : FeatureTable
  /-- The table that the settings name, or why it could not be read. -/
  configured : Except Failure FeatureTable
  sink : Sink
  /-- Whether marking cached bundles works. -/
  canInvalidate : Bool
  /-- Whether administration has bundles to keep fresh. -/
  hasBundles : Bool
  /-- Whether another writer comes in between the check of a call and its write, so that the check
  has not seen what the write meets. -/
  isOvertaken : Bool

structure Engine where
  store : Store
  ids : IdSupply
  clock : Instant
  outbox : List Event

/-- An engine with nothing in it, whatever identifiers will be called. -/
def Engine.empty (clock : Instant) (scheme : IdScheme) : Engine :=
  { store := Store.empty, ids := IdSupply.start scheme, clock, outbox := [] }

/-- The same with identifiers that are numbered. -/
def Engine.start (clock : Instant) (descending : Bool) : Engine :=
  .empty clock (.numbered descending)

/-! ### Calls -/

abbrev Call := ReaderT Environment (ExceptT Failure (StateM Engine))

namespace Call

/-- The answer of a call and the engine after it. -/
def outcome (x : Call α) (env : Environment) (e : Engine) : Except Failure α × Engine := x env e

def store : Call Store := do return (← get).store

def now : Call Instant := do return (← get).clock

def write (s : Store) : Call Unit := modify fun e => { e with store := s }

/-- The value, or else the failure. -/
def orFail (failure : Failure) : Option α → Call α
  | some a => pure a
  | none => throw failure

/-- Sets the clock, if a time is given, and then moves it on. -/
def moveClock (setTo : Option Instant) (micros : Int) : Call Instant := do
  let time ← orFail .outOfRange ((setTo.getD (← now)).add? micros)
  modify fun e => { e with clock := time }
  return time

/-- Takes the events that wait. -/
def collect : Call (List Event) := modifyGet fun e => (e.outbox, { e with outbox := [] })

/-- Uses up an identifier. -/
def freshId (kind : IdKind) : Call String :=
  modifyGet fun e => (e.ids.next kind, { e with ids := e.ids.advance kind })

def requireTenant (tenant : Given) : Call Unit := do
  ofExcept ((← read).settings.checkTenant tenant)

/-- A part of an ordered table. Numbers that the table cannot take are out of range. -/
def window (offset limit : Option Int) (rows : List α) : Call (List α) := do
  if (offset.toList ++ limit.toList).all isTableInteger then
    return page (offset.getD 0) limit rows
  else throw .outOfRange

/-- Runs a step whose failure does not matter. -/
def attempt (x : Call Unit) : Call Unit := tryCatch x fun _ => pure ()

/-- Runs a call whose writes count only if all of it succeeds. -/
def transaction (x : Call α) : Call α := do
  let before ← store
  tryCatch x fun failure => do
    write before
    throw failure

end Call

end Entitlements
