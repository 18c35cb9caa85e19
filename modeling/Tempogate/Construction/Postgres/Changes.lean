/-
This file models the change feed of the Postgres store, which relays notifications and re-reads
the denylist whenever it has reconnected.
-/

import Tempogate.Construction.Oidc.Types

namespace Tempogate.Postgres

open Oidc (Time second minute)

inductive KeysChange
  | keys
  | jtiRevoked (jti : String)
  deriving DecidableEq, Repr

def encodeChange : KeysChange → String
  | .jtiRevoked jti => "jti:" ++ jti
  | .keys => "keys"

/-- A payload that no writer sends is ignored, and so is one without a jti. -/
def decodeChange (payload : String) : Option KeysChange :=
  match payload.toList with
  | 'j' :: 't' :: 'i' :: ':' :: letter :: rest =>
    some (.jtiRevoked (String.ofList (letter :: rest)))
  | _ => if payload = "keys" then some .keys else none

def feedRetryMin : Time := second

def feedRetryMax : Time := 30 * second

def resyncSkew : Time := minute

/-- The feed's clock read `committedAt` when the row was committed, which the row does not store. -/
structure Denial where
  jti : String
  revokedAt : Time
  committedAt : Time
  deriving DecidableEq, Repr

/-- This is where the loop of `runFeed` and its call of `listenOnce` stand. -/
inductive FeedStage
  | connecting
  | listening
  /-- The resync began when the denylist held these rows. -/
  | resyncing (begun : List Denial)
  | relaying
  deriving DecidableEq, Repr

/-- The state is the clock, the denylist, what Postgres holds for the listening connection, the
variables of `runFeed` and what was passed to `Publish`. -/
structure Feed where
  now : Time
  denylist : List Denial
  queued : List String
  since : Time
  retry : Time
  stage : FeedStage
  published : List KeysChange
  deriving DecidableEq, Repr

inductive FeedEvent
  | passes (moment : Time)
  | revokes (jti : String) (revokedAt : Time)
  | changesKeys
  | connectFails
  | listens
  | queries
  | resyncFails
  | resyncs
  | notifies
  | loses

namespace Feed

/-- This is how `runFeed` starts on a database with some earlier denials. -/
def started (now : Time) (earlier : List Denial) : Feed where
  now := now
  denylist := earlier
  queued := []
  since := now
  retry := feedRetryMin
  stage := .connecting
  published := []

/-- A committed notification is held for the feed only while it is listening. -/
def notify (change : KeysChange) (feed : Feed) : Feed :=
  match feed.stage with
  | .connecting => feed
  | _ => { feed with queued := feed.queued ++ [encodeChange change] }

/-- The revocation of an integration key denies its jti and notifies in one transaction. -/
def markIntegrationKeyRevoked (jti : String) (revokedAt : Time) (feed : Feed) : Feed :=
  notify (.jtiRevoked jti) (if feed.denylist.any (fun row => row.jti = jti) then feed
    else { feed with denylist := feed.denylist ++ [⟨jti, revokedAt, feed.now⟩] })

/-- These are the changes that a resync reports. -/
def resync (since : Time) (rows : List Denial) : List KeysChange :=
  .keys :: (rows.filter fun row => since ≤ row.revokedAt).map fun row => .jtiRevoked row.jti

/-- The loop goes on after `listenOnce` has returned. -/
def reconnect (connected : Bool) (feed : Feed) : Feed :=
  let since := if connected then feed.now else feed.since
  let retry := if connected then feedRetryMin else feed.retry
  { feed with since, retry := min (2 * retry) feedRetryMax, stage := .connecting, queued := [] }

/-- Waiting for the retry and for the next ping is passing time. -/
def advance (feed : Feed) : FeedEvent → Option Feed
  | .passes moment => if feed.now ≤ moment then some { feed with now := moment } else none
  | .revokes jti revokedAt => some (feed.markIntegrationKeyRevoked jti revokedAt)
  | .changesKeys => some (feed.notify .keys)
  | .connectFails =>
    match feed.stage with
    | .connecting => some (feed.reconnect false)
    | _ => none
  | .listens =>
    match feed.stage with
    | .connecting => some { feed with stage := .listening }
    | _ => none
  | .queries =>
    match feed.stage with
    | .listening => some { feed with stage := .resyncing feed.denylist }
    | _ => none
  | .resyncFails =>
    -- `up` has been called as soon as the feed was listening
    match feed.stage with
    | .listening | .resyncing _ => some (feed.reconnect true)
    | _ => none
  | .resyncs =>
    match feed.stage with
    | .resyncing begun =>
      some { feed with
        stage := .relaying
        published := feed.published ++ resync (feed.since - resyncSkew) begun }
    | _ => none
  | .notifies =>
    match feed.stage, feed.queued with
    | .relaying, payload :: rest =>
      some { feed with
        queued := rest
        published := feed.published ++ (decodeChange payload).toList }
    | _, _ => none
  | .loses =>
    match feed.stage with
    | .relaying => some (feed.reconnect true)
    | _ => none

end Feed

end Tempogate.Postgres
