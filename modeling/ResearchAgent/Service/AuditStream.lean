import ResearchAgent.Service.Governance
import ResearchAgent.Service.RateWindows

namespace ResearchAgent.Service

open Library

-- What the audit script uses of the server: the digest of a text, and the text of a number,
-- which has an exponent from fifteen digits on.
structure AuditServer where
  sha1hex : String → String
  number_text : ℕ → String
  length_sha1hex : ∀ text, (sha1hex text).length = 40
  number_text_eq : ∀ n < 10 ^ 14, number_text n = toString n

-- An entry of the stream `governance:audit:events`.
structure StreamEntry where
  sequence : String
  previous_hash : String
  event_hash : String
  event : String
deriving DecidableEq

-- What its digest is taken of.
def StreamEntry.text (entry : StreamEntry) : String :=
  entry.previous_hash ++ entry.event ++ entry.sequence

-- The three keys of the audit log.
structure AuditKeys where
  last_hash : Option String := none
  sequence : Option ℕ := none
  events : List StreamEntry := []

-- One call of `append_audit` at some replica. The server evicts about as many of the oldest
-- entries as it may.
structure AuditRequest where
  call : AuditCall
  delivery : Delivery
  evicted : ℕ

namespace AuditStream

-- `string.rep('0', 40)`
def zeros : String := String.ofList (List.replicate 40 '0')

-- `MAXLEN ~` keeps at least so many entries.
def trim (max_length evicted : ℕ) (events : List StreamEntry) : List StreamEntry :=
  events.drop (min evicted (events.length - max_length))

variable (server : AuditServer) (float_repr : ℚ → String)

-- `_AUDIT_LUA`
def append_event (keys : AuditKeys) (evicted : ℕ) (event : String) (max_length : ℕ) :
    (ℕ × String × String) × AuditKeys :=
  let previous := keys.last_hash.getD zeros
  let sequence := keys.sequence.getD 0 + 1
  let digest := server.sha1hex (previous ++ event ++ server.number_text sequence)
  let entry := ⟨server.number_text sequence, previous, digest, event⟩
  ((sequence, previous, digest),
    { last_hash := some digest
      sequence := some sequence
      events := trim max_length evicted (keys.events ++ [entry]) })

def unavailable : ServiceError := .JobStoreError "Audit store unavailable"

-- The branch of `append_audit` for the shared log.
def append_audit (keys : AuditKeys) (request : AuditRequest) :
    Except ServiceError AuditRecord × AuditKeys :=
  let body := GovernanceStore.body float_repr request.call.event
  match request.delivery with
  | .undelivered => (.error unavailable, keys)
  | .unanswered =>
      (.error unavailable, (append_event server keys request.evicted body 100000).2)
  | .answered =>
      let ((sequence, previous, digest), keys) :=
        append_event server keys request.evicted body 100000
      (.ok ⟨request.call.event, sequence, previous, digest⟩, keys)

-- The log after the calls of all replicas, the newest first.
def after : List AuditRequest → AuditKeys
  | [] => {}
  | request :: earlier => (append_audit server float_repr (after earlier) request).2

def outcome (earlier : List AuditRequest) (request : AuditRequest) :
    Except ServiceError AuditRecord :=
  (append_audit server float_repr (after server float_repr earlier) request).1

-- The entry that goes on from a last hash.
def sealed (last event : String) (sequence : ℕ) : StreamEntry where
  sequence := server.number_text sequence
  previous_hash := last
  event_hash := server.sha1hex (last ++ event ++ server.number_text sequence)
  event := event

-- The entries as they are written, whatever is evicted; with them the last hash.
def written : List AuditRequest → List StreamEntry × String
  | [] => ([], zeros)
  | request :: earlier =>
      let log := (written earlier).1
      let entry := sealed server (written earlier).2
        (GovernanceStore.body float_repr request.call.event) (log.length + 1)
      if request.delivery = .undelivered then written earlier
      else (log ++ [entry], entry.event_hash)

-- An entry that checks out by itself: the event is the text of an object.
structure Sound (entry : StreamEntry) : Prop where
  digest : entry.event_hash = server.sha1hex entry.text
  previous : entry.previous_hash.length = 40
  closed : ∃ front, entry.event.toList = front ++ ['\x7d']
  digits : '\x7d' ∉ entry.sequence.toList

-- A stream that checks out against a last hash.
structure ChecksOut (entries : List StreamEntry) (last : String) : Prop where
  sound : ∀ entry ∈ entries, Sound server entry
  linked : Linked StreamEntry.previous_hash StreamEntry.event_hash entries last

variable {server float_repr} {requests earlier : List AuditRequest} {request : AuditRequest}
  {entry entry' : StreamEntry} {entries : List StreamEntry} {last : String}

theorem written_undelivered (h : request.delivery = .undelivered) :
    written server float_repr (request :: earlier) = written server float_repr earlier := by
  simp only [written, if_pos h]

theorem written_delivered (h : request.delivery ≠ .undelivered) :
    written server float_repr (request :: earlier) =
      ((written server float_repr earlier).1 ++ [sealed server (written server float_repr earlier).2
          (GovernanceStore.body float_repr request.call.event)
          ((written server float_repr earlier).1.length + 1)],
        (sealed server (written server float_repr earlier).2
          (GovernanceStore.body float_repr request.call.event)
          ((written server float_repr earlier).1.length + 1)).event_hash) := by
  simp only [written, if_neg h]

-- The keys hold the last hash, the number and the end of what has been written.
structure Follows (keys : AuditKeys) (log : List StreamEntry × String) : Prop where
  last_hash : keys.last_hash.getD zeros = log.2
  sequence : keys.sequence.getD 0 = log.1.length
  events : keys.events <:+ log.1
  kept : min log.1.length 100000 ≤ keys.events.length

variable (server) in
theorem Follows.append {keys : AuditKeys} {log : List StreamEntry × String} (h : Follows keys log)
    (evicted : ℕ) (event : String) :
    (append_event server keys evicted event 100000).1 =
      (log.1.length + 1, log.2, (sealed server log.2 event (log.1.length + 1)).event_hash) ∧
    Follows (append_event server keys evicted event 100000).2
      (log.1 ++ [sealed server log.2 event (log.1.length + 1)],
        (sealed server log.2 event (log.1.length + 1)).event_hash) := by
  obtain ⟨hlast, hsequence, ⟨front, hevents⟩, hkept⟩ := h
  have hreply : append_event server keys evicted event 100000 =
      let entry := sealed server log.2 event (log.1.length + 1)
      ((log.1.length + 1, log.2, entry.event_hash),
        ⟨some entry.event_hash, some (log.1.length + 1),
          trim 100000 evicted (keys.events ++ [entry])⟩) := by
    simp only [append_event, hlast, hsequence, sealed]
  rw [hreply]
  refine ⟨rfl, rfl, by simp, ?_, ?_⟩
  · refine (List.drop_suffix _ _).trans ⟨front, ?_⟩
    rw [← List.append_assoc, hevents]
  · unfold trim
    simp only [List.length_drop, List.length_append, List.length_singleton]
    omega

variable (server float_repr) in
theorem follows (requests : List AuditRequest) :
    Follows (after server float_repr requests) (written server float_repr requests) := by
  induction requests with
  | nil => exact ⟨rfl, rfl, List.suffix_rfl, Nat.zero_le _⟩
  | cons request earlier ih =>
      have happend := ih.append server request.evicted
        (GovernanceStore.body float_repr request.call.event)
      cases hdelivery : request.delivery with
      | undelivered =>
          rw [written_undelivered hdelivery]
          simpa only [after, append_audit, hdelivery] using ih
      | unanswered | answered =>
          rw [written_delivered (by simp [hdelivery])]
          simpa only [after, append_audit, hdelivery] using happend.2

-- What an answered call returns is the entry that it has written.
theorem outcome_ok {record : AuditRecord}
    (h : outcome server float_repr earlier request = .ok record) :
    request.delivery = .answered ∧ record.event = request.call.event ∧
      record.sequence = (written server float_repr earlier).1.length + 1 ∧
      record.previous_hash = (written server float_repr earlier).2 ∧
      (sealed server record.previous_hash (GovernanceStore.body float_repr record.event)
        record.sequence).event_hash = record.event_hash := by
  have happend := ((follows server float_repr earlier).append server request.evicted
    (GovernanceStore.body float_repr request.call.event)).1
  cases hdelivery : request.delivery with
  | undelivered | unanswered =>
      simp only [outcome, append_audit, hdelivery] at h
      cases h
  | answered =>
      simp only [outcome, append_audit, hdelivery, happend] at h
      cases h
      exact ⟨rfl, rfl, rfl, rfl, rfl⟩

theorem written_of_suffix (h : earlier <:+ requests) :
    (written server float_repr earlier).1 <+: (written server float_repr requests).1 := by
  induction requests with
  | nil => rw [List.suffix_nil.mp h]
  | cons request rest ih =>
      rcases List.suffix_cons_iff.mp h with rfl | h
      · exact List.prefix_rfl
      · refine (ih h).trans ?_
        by_cases hdelivery : request.delivery = .undelivered
        · rw [written_undelivered hdelivery]
        · rw [written_delivered hdelivery]
          exact List.prefix_append _ _

theorem length_written_le (requests : List AuditRequest) :
    (written server float_repr requests).1.length ≤ requests.length := by
  induction requests with
  | nil => exact le_rfl
  | cons request rest ih =>
      by_cases hdelivery : request.delivery = .undelivered
      · rw [written_undelivered hdelivery, List.length_cons]
        omega
      · rw [written_delivered hdelivery, List.length_append, List.length_cons]
        simpa using ih

theorem sound_sealed {event : String} {sequence : ℕ} (hlast : last.length = 40)
    (hclosed : ∃ front, event.toList = front ++ ['\x7d']) (hsequence : sequence < 10 ^ 14) :
    Sound server (sealed server last event sequence) where
  digest := rfl
  previous := hlast
  closed := hclosed
  digits := by
    simp only [sealed, server.number_text_eq sequence hsequence]
    exact GovernanceStore.brace_not_mem_digits sequence

theorem checks_out_written (hsize : requests.length < 10 ^ 14) :
    ChecksOut server (written server float_repr requests).1
        (written server float_repr requests).2 ∧
      (written server float_repr requests).2.length = 40 ∧
      (written server float_repr requests).1.map StreamEntry.sequence =
        (List.range' 1 (written server float_repr requests).1.length).map toString := by
  induction requests with
  | nil =>
      have hzeros : zeros.length = 40 := by decide
      exact ⟨⟨fun _ hmem => absurd hmem List.not_mem_nil, .empty _⟩, hzeros, rfl⟩
  | cons request earlier ih =>
      obtain ⟨⟨hsound, hlinked⟩, hlength, hsequences⟩ :=
        ih ((Nat.lt_succ_self _).trans hsize)
      by_cases hdelivery : request.delivery = .undelivered
      · rw [written_undelivered hdelivery]
        exact ⟨⟨hsound, hlinked⟩, hlength, hsequences⟩
      · rw [written_delivered hdelivery]
        have hcount : (written server float_repr earlier).1.length + 1 < 10 ^ 14 :=
          (Nat.succ_le_succ (length_written_le earlier)).trans_lt hsize
        refine ⟨⟨fun entry hmem => ?_, .append hlinked⟩, server.length_sha1hex _, ?_⟩
        · rcases List.mem_append.mp hmem with hmem | hmem
          · exact hsound entry hmem
          · rw [List.mem_singleton.mp hmem]
            exact sound_sealed hlength (dumps_dict_closed ..) hcount
        · rw [List.map_append, hsequences, List.length_append, List.length_singleton,
            List.range'_1_concat, List.map_append, Nat.add_comm 1]
          simp only [List.map_singleton, sealed, server.number_text_eq _ hcount]

-- The digest is taken of a plain concatenation, which can be read in one way only.
theorem Sound.injective (h : Sound server entry) (h' : Sound server entry')
    (htext : entry.text = entry'.text) : entry = entry' := by
  obtain ⟨front, hfront⟩ := h.closed
  obtain ⟨front', hfront'⟩ := h'.closed
  have hdigest : entry.event_hash = entry'.event_hash := by rw [h.digest, h'.digest, htext]
  have htexts := congrArg String.toList htext
  simp only [StreamEntry.text, String.toList_append, hfront, hfront', List.append_assoc] at htexts
  have hlengths : entry.previous_hash.toList.length = entry'.previous_hash.toList.length := by
    rw [String.length_toList, String.length_toList, h.previous, h'.previous]
  obtain ⟨hprevious, hrests⟩ := List.append_inj htexts hlengths
  obtain ⟨hfronts, hdigits⟩ := GovernanceStore.split_at_last hrests h.digits h'.digits
  have hevent : entry.event = entry'.event := by
    apply String.toList_inj.mp
    rw [hfront, hfront', hfronts]
  cases entry
  cases entry'
  simp only [StreamEntry.mk.injEq]
  exact ⟨String.toList_inj.mp hdigits, String.toList_inj.mp hprevious, hdigest, hevent⟩

end AuditStream

open AuditStream

-- However the calls of the replicas interleave and whatever the server evicts: the stream is
-- the end of the log of all calls, numbered one after another, in which every answered call
-- finds its record; and no other stream of entries checks out against the last hash.
theorem shared_audit_log (server : AuditServer) (float_repr : ℚ → String)
    (requests : List AuditRequest) (hsize : requests.length < 10 ^ 14) :
    let keys := after server float_repr requests
    let log := (written server float_repr requests).1
    (keys.events <:+ log ∧ min log.length 100000 ≤ keys.events.length ∧
      log.map StreamEntry.sequence = (List.range' 1 log.length).map toString ∧
      ChecksOut server keys.events (keys.last_hash.getD zeros)) ∧
    (∀ request earlier record, request :: earlier <:+ requests →
      outcome server float_repr earlier request = .ok record →
      record.event = request.call.event ∧
      record.sequence = (written server float_repr earlier).1.length + 1 ∧
      log[record.sequence - 1]? = some ⟨toString record.sequence, record.previous_hash,
        record.event_hash, GovernanceStore.body float_repr record.event⟩) ∧
    ∀ entries, ChecksOut server entries (keys.last_hash.getD zeros) →
      entries.length ≤ keys.events.length →
      GovernanceStore.CollisionFree server.sha1hex ((entries ++ keys.events).map StreamEntry.text) →
      entries <:+ keys.events := by
  intro keys log
  obtain ⟨hlast, -, hevents, hkept⟩ := follows server float_repr requests
  obtain ⟨⟨hsound, hlinked⟩, -, hsequences⟩ :=
    @checks_out_written server float_repr requests hsize
  have hstream : ChecksOut server keys.events (keys.last_hash.getD zeros) := by
    obtain ⟨front, hfront⟩ := hevents
    refine ⟨fun entry hmem => hsound entry ?_, ?_⟩
    · rw [← hfront]
      exact List.mem_append_right _ hmem
    · have hrest := hlinked.drop front.length
      rwa [← hfront, List.drop_left, ← hlast] at hrest
  refine ⟨⟨hevents, hkept, hsequences, hstream⟩, ?_, ?_⟩
  · intro request earlier record hsuffix hok
    obtain ⟨hdelivery, hevent, hsequence, hprevious, hdigest⟩ := outcome_ok hok
    have hprefix := @written_of_suffix server float_repr _ _ hsuffix
    rw [written_delivered (by simp [hdelivery])] at hprefix
    have hcount : record.sequence < 10 ^ 14 := by
      rw [hsequence]
      exact (Nat.succ_le_succ (length_written_le earlier)).trans_lt
        (hsuffix.length_le.trans_lt hsize)
    have hentry : log[record.sequence - 1]? = some (sealed server record.previous_hash
        (GovernanceStore.body float_repr record.event) record.sequence) := by
      obtain ⟨rest, hrest⟩ := hprefix
      rw [show log = _ from hrest.symm, hsequence, Nat.add_sub_cancel, List.append_assoc,
        List.getElem?_append_right le_rfl, Nat.sub_self, hprevious, hevent]
      rfl
    refine ⟨hevent, hsequence, ?_⟩
    rw [hentry, ← hdigest, ← server.number_text_eq _ hcount]
    rfl
  · intro entries hchecks hlength hfree
    refine hchecks.linked.suffix hstream.linked ?_ hlength
    intro entry hmem entry' hmem' hdigest
    have hsound' := hchecks.sound entry hmem
    have hsound'' := hstream.sound entry' hmem'
    apply hsound'.injective hsound''
    apply hfree
    · exact List.mem_map_of_mem (List.mem_append_left _ hmem)
    · exact List.mem_map_of_mem (List.mem_append_right _ hmem')
    · rw [← hsound'.digest, ← hsound''.digest, hdigest]

def sample_event (event_type : String) : String :=
  "\x7b\"details\":\x7b\x7d,\"event_type\":\"" ++ event_type ++
    "\",\"job_id\":\"job\",\"principal_id\":\"p\",\"tenant_id\":\"t\",\"timestamp\":\"1\"\x7d"

-- SHA-1 on the texts that the calls below hash, and on that of an edited event.
def sample_sha1 (text : String) : String :=
  if text = zeros ++ sample_event "report_rejected" ++ "1" then
    "ed06840f362bbdcf2180aa26a5dbd083e9eb7b53"
  else if text = zeros ++ sample_event "report_approved" ++ "1" then
    "bce1f3db64ff948a263aba5c0005628eb9cef1c5"
  else if text = "ed06840f362bbdcf2180aa26a5dbd083e9eb7b53" ++ sample_event "report_approved" ++ "2"
    then "b2661c5526c5ed1716f05db6c6051e8de7fa34b7"
  else String.ofList (List.replicate 40 'f')

def AuditServer.sample : AuditServer where
  sha1hex := sample_sha1
  number_text := toString
  length_sha1hex text := by
    unfold sample_sha1
    split
    · decide
    · split
      · decide
      · split <;> decide
  number_text_eq _ _ := rfl

def two_replicas : List AuditRequest :=
  [⟨sample_call "report_approved", .answered, 1⟩, ⟨sample_call "report_approved", .undelivered, 0⟩,
    ⟨sample_call "report_rejected", .unanswered, 0⟩]

def genuine_stream : List StreamEntry :=
  [sealed .sample zeros (sample_event "report_rejected") 1,
    sealed .sample "ed06840f362bbdcf2180aa26a5dbd083e9eb7b53" (sample_event "report_approved") 2]

-- The rejection is made an approval.
def edited_stream : List StreamEntry :=
  [sealed .sample zeros (sample_event "report_approved") 1,
    sealed .sample "ed06840f362bbdcf2180aa26a5dbd083e9eb7b53" (sample_event "report_approved") 2]

theorem shared_audit_log_edited :
    ¬ChecksOut .sample edited_stream
      ((after .sample toString two_replicas).last_hash.getD zeros) := by
  intro hchecks
  have hevents : (after .sample toString two_replicas).events = genuine_stream := by decide +kernel
  have hfree : GovernanceStore.CollisionFree sample_sha1
      ((edited_stream ++ genuine_stream).map StreamEntry.text) := by decide +kernel
  have hlength : edited_stream.length ≤ genuine_stream.length := Nat.le_refl 2
  rw [← hevents] at hfree hlength
  have hsize : two_replicas.length < 10 ^ 14 := by norm_num [two_replicas]
  have hsuffix := (shared_audit_log .sample toString two_replicas hsize).2.2 edited_stream hchecks
    hlength hfree
  rw [hevents] at hsuffix
  exact absurd hsuffix (by decide +kernel)

end ResearchAgent.Service
