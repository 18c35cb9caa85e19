/-
This file shows that the change feed of the Postgres store misses no revocation as long as no
connection ends with one that the next resync does not read.
-/

import Tempogate.Construction.Postgres.Changes

namespace Tempogate.Postgres

open List

open Oidc (Time second minute)

theorem decodeChange_encodeChange {jti : String} (named : jti ≠ "") :
    decodeChange (encodeChange (.jtiRevoked jti)) = some (.jtiRevoked jti) := by
  have letters : (encodeChange (.jtiRevoked jti)).toList = 'j' :: 't' :: 'i' :: ':' :: jti.toList :=
    String.toList_append
  cases spelled : jti.toList with
  | nil => exact absurd (String.toList_eq_nil_iff.mp spelled) named
  | cons letter rest =>
    rw [decodeChange, letters, spelled]
    exact congrArg (some ∘ KeysChange.jtiRevoked) (spelled ▸ String.ofList_toList)

namespace Feed

variable {start : Time} {feed after : Feed} {row : Denial} {event : FeedEvent}

/-- A resync from this time on reads the row. -/
def Reads (since : Time) (row : Denial) : Prop := since ≤ row.revokedAt + resyncSkew

instance (since : Time) (row : Denial) : Decidable (Reads since row) :=
  inferInstanceAs (Decidable (_ ≤ _))

/-- A notification of the row is still to be delivered. -/
def Queues (feed : Feed) (row : Denial) : Prop :=
  ∃ payload ∈ feed.queued, decodeChange payload = some (.jtiRevoked row.jti)

/-- This is where the feed finds a row that it has not published. -/
def Holds (feed : Feed) (row : Denial) : Prop :=
  match feed.stage with
  | .connecting | .listening => Reads feed.since row
  | .resyncing begun => Reads feed.since row ∧ (row ∈ begun ∨ feed.Queues row)
  | .relaying => feed.Queues row

/-- The row was written after the start, with a stamp that is not too old. -/
def Awaited (start : Time) (row : Denial) : Prop :=
  start ≤ row.committedAt ∧ Reads row.committedAt row

/-- Every row written since the start was published or is still held. -/
structure Covers (start : Time) (feed : Feed) : Prop where
  past : feed.since ≤ feed.now
  stored : ∀ begun, feed.stage = .resyncing begun → begun ⊆ feed.denylist
  covered : ∀ row ∈ feed.denylist, Awaited start row →
    .jtiRevoked row.jti ∈ feed.published ∨ feed.Holds row

/-- A connection ends only when the next resync reads what this one still had to report. -/
def Safe (feed : Feed) : FeedEvent → Prop
  | .revokes jti _ => jti ≠ ""
  | .resyncFails => ∀ row ∈ feed.denylist, Reads feed.since row → Reads feed.now row
  | .loses => ∀ row ∈ feed.denylist, feed.Queues row → Reads feed.now row
  | _ => True

/-- Each event of the run is safe in the state that it meets. -/
def Guarded : Feed → List FeedEvent → Prop
  | _, [] => True
  | feed, event :: rest => feed.Safe event ∧ ∀ next ∈ feed.advance event, next.Guarded rest

theorem covers_started (start : Time) (earlier : List Denial) :
    Covers start (started start earlier) where
  past := Int.le_refl start
  stored := nofun
  covered _ _ awaited := .inr (Int.le_trans awaited.1 awaited.2)

/-- A connection that ends leaves the rows that the next resync reads. -/
theorem Covers.reconnect (connected : Bool) (past : feed.since ≤ feed.now)
    (covered : ∀ row ∈ feed.denylist, Awaited start row → .jtiRevoked row.jti ∈ feed.published ∨
      Reads (if connected then feed.now else feed.since) row) :
    Covers start (feed.reconnect connected) where
  past := by
    cases connected with
    | true => exact Int.le_refl feed.now
    | false => exact past
  stored := nofun
  covered := covered

theorem Queues.append (queues : feed.Queues row) (payload : String) :
    Queues { feed with queued := feed.queued ++ [payload] } row := by
  obtain ⟨earlier, member, decoded⟩ := queues
  exact ⟨earlier, mem_append_left _ member, decoded⟩

/-- A notification adds to what a listening feed holds. -/
theorem Covers.notify (covers : Covers start feed) (change : KeysChange) :
    Covers start (feed.notify change) := by
  obtain ⟨now, denylist, queued, since, retry, stage, published⟩ := feed
  cases stage with
  | connecting => exact covers
  | listening => exact ⟨covers.past, nofun, covers.covered⟩
  | resyncing begun =>
    refine ⟨covers.past, covers.stored, fun row present awaited => ?_⟩
    refine (covers.covered row present awaited).imp_right fun held => ⟨held.1, ?_⟩
    exact held.2.imp_right fun queues => queues.append _
  | relaying =>
    refine ⟨covers.past, nofun, fun row present awaited => ?_⟩
    exact (covers.covered row present awaited).imp_right fun queues => queues.append _

/-- A row is held as soon as its transaction commits. -/
theorem Covers.revoke (covers : Covers start feed) {jti : String} (revokedAt : Time)
    (named : jti ≠ "") : Covers start (feed.markIntegrationKeyRevoked jti revokedAt) := by
  have kept : Covers start (feed.notify (.jtiRevoked jti)) := covers.notify _
  unfold markIntegrationKeyRevoked
  split
  · exact kept
  · obtain ⟨now, denylist, queued, since, retry, stage, published⟩ := feed
    have queues : ∃ payload ∈ queued ++ [encodeChange (.jtiRevoked jti)],
        decodeChange payload = some (.jtiRevoked jti) :=
      ⟨_, mem_append_right _ mem_cons_self, decodeChange_encodeChange named⟩
    have grown : ∀ begun, stage = .resyncing begun →
        begun ⊆ denylist ++ [⟨jti, revokedAt, now⟩] := fun begun same =>
      subset_append_of_subset_left _ (covers.stored begun same)
    cases stage <;> refine ⟨kept.past, grown, fun row present awaited => ?_⟩ <;>
      rcases mem_append.mp present with old | new
    all_goals first
      | exact kept.covered row old awaited
      | cases mem_singleton.mp new
        right
    · exact Int.le_trans covers.past awaited.2
    · exact Int.le_trans covers.past awaited.2
    · exact ⟨Int.le_trans covers.past awaited.2, .inr queues⟩
    · exact queues

theorem mem_resync {since : Time} {rows : List Denial} (present : row ∈ rows)
    (reads : Reads since row) : .jtiRevoked row.jti ∈ resync (since - resyncSkew) rows := by
  refine mem_cons_of_mem _ (mem_map_of_mem (mem_filter.mpr ⟨present, ?_⟩))
  exact decide_eq_true (Int.sub_right_le_of_le_add reads)

/-- A safe event keeps each row published or held. -/
theorem Covers.advance (covers : Covers start feed) (safe : feed.Safe event)
    (moved : feed.advance event = some after) : Covers start after := by
  obtain ⟨now, denylist, queued, since, retry, stage, published⟩ := feed
  cases event with
  | revokes jti revokedAt => cases moved; exact covers.revoke revokedAt safe
  | changesKeys => cases moved; exact covers.notify _
  | passes moment =>
    obtain ⟨later, same⟩ := Option.ite_none_right_eq_some.mp moved
    cases same
    exact ⟨Int.le_trans covers.past later, covers.stored, covers.covered⟩
  | connectFails =>
    cases stage <;> cases moved
    exact Covers.reconnect false covers.past covers.covered
  | listens =>
    cases stage <;> cases moved
    exact ⟨covers.past, nofun, covers.covered⟩
  | queries =>
    cases stage <;> cases moved
    refine ⟨covers.past, ?_, fun row present awaited => ?_⟩
    · rintro begun ⟨⟩
      exact List.Subset.refl denylist
    · exact (covers.covered row present awaited).imp_right fun reads =>
        ⟨reads, .inl present⟩
  | resyncFails =>
    cases stage <;> cases moved <;>
      refine Covers.reconnect true covers.past fun row present awaited => ?_
    · exact (covers.covered row present awaited).imp_right (safe row present)
    · exact (covers.covered row present awaited).imp_right fun held =>
        safe row present held.1
  | resyncs =>
    cases stage <;> cases moved
    refine ⟨covers.past, nofun, fun row present awaited => ?_⟩
    rcases covers.covered row present awaited with before | ⟨reads, begun | waits⟩
    · exact .inl (mem_append_left _ before)
    · exact .inl (mem_append_right _ (mem_resync begun reads))
    · exact .inr waits
  | notifies =>
    cases stage <;> cases queued <;> cases moved
    refine ⟨covers.past, nofun, fun row present awaited => ?_⟩
    rcases covers.covered row present awaited with before | ⟨payload, member, decoded⟩
    · exact .inl (mem_append_left _ before)
    · rcases mem_cons.mp member with rfl | later
      · exact .inl (mem_append_right _ (Option.mem_toList.mpr decoded))
      · exact .inr ⟨payload, later, decoded⟩
  | loses =>
    cases stage <;> cases moved
    refine Covers.reconnect true covers.past fun row present awaited => ?_
    exact (covers.covered row present awaited).imp_right (safe row present)

theorem Covers.run {events : List FeedEvent} (covers : Covers start feed)
    (guarded : feed.Guarded events) (ran : events.foldlM Feed.advance feed = some after) :
    Covers start after := by
  induction events generalizing feed with
  | nil => cases ran; exact covers
  | cons event rest ih =>
    obtain ⟨next, moved, ran⟩ := Option.bind_eq_some_iff.mp ran
    exact ih (covers.advance guarded.1 moved) (guarded.2 next moved) ran

end Feed

open Feed in
/-- In a guarded run a resync that succeeds has published every jti that was written after the feed
started and before the resync began, with a stamp that is not too old. -/
theorem feed_misses_no_revocation {start : Time} {earlier begun : List Denial}
    {events : List FeedEvent} {feed after : Feed}
    (ran : events.foldlM Feed.advance (started start earlier) = some feed)
    (guarded : (started start earlier).Guarded events) (resyncing : feed.stage = .resyncing begun)
    (resynced : feed.advance .resyncs = some after) {row : Denial} (written : row ∈ begun)
    (since : start ≤ row.committedAt) (recent : row.committedAt ≤ row.revokedAt + resyncSkew) :
    .jtiRevoked row.jti ∈ after.published := by
  have covers := (covers_started start earlier).run guarded ran
  obtain ⟨now, denylist, queued, lost, retry, stage, published⟩ := feed
  cases resyncing
  cases resynced
  have stored := covers.stored begun rfl written
  rcases covers.covered row stored ⟨since, recent⟩ with before | ⟨reads, -⟩
  · exact mem_append_left _ before
  · exact mem_append_right _ (mem_resync written reads)

def sampleDenial : Denial := ⟨"jti", 10 * second, 10 * second⟩

/-- The connection is lost together with a notification. -/
def sampleOutage : List FeedEvent :=
  [.listens, .queries, .resyncs, .passes (10 * second), .revokes "jti" (10 * second),
    .passes (40 * second), .loses, .passes (600 * second), .listens, .queries]

open Feed in
theorem lost_notification_is_resynced : ∃ feed after : Feed,
    sampleOutage.foldlM Feed.advance (started 0 []) = some feed ∧
      feed.advance .resyncs = some after ∧ .jtiRevoked "jti" ∈ after.published := by
  have guarded : (started 0 []).Guarded sampleOutage := by
    simp [sampleOutage, Guarded, Safe, advance, started, markIntegrationKeyRevoked, notify,
      reconnect, Reads, second, resyncSkew, minute]
  obtain ⟨feed, after, ran, stage, resynced⟩ : ∃ feed after : Feed,
      sampleOutage.foldlM Feed.advance (started 0 []) = some feed ∧
        feed.stage = .resyncing [sampleDenial] ∧ feed.advance .resyncs = some after :=
    ⟨_, _, rfl, rfl, rfl⟩
  exact ⟨feed, after, ran, resynced, feed_misses_no_revocation ran guarded stage resynced
    (mem_singleton.mpr rfl) (by decide) (by decide)⟩

/-- A resync that fails after the feed was listening moves the next one past the revocation. -/
theorem failed_resync_misses_revocation : ∃ feed after : Feed,
    [.passes (10 * second), .revokes "jti" (10 * second), .passes (600 * second), .listens,
        .resyncFails, .listens, .queries].foldlM Feed.advance (.started 0 []) = some feed ∧
    feed.stage = .resyncing [sampleDenial] ∧
    feed.advance .resyncs = some after ∧ .jtiRevoked "jti" ∉ after.published := by
  exact ⟨_, _, rfl, rfl, rfl, by decide⟩

end Tempogate.Postgres
