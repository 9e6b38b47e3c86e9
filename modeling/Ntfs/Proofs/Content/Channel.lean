import Mathlib.Data.List.Forall2
import Ntfs.Content.Channel
import Ntfs.Proofs.Content.Count
import Ntfs.Proofs.Content.Stream

/-!
# What a consumer receives

The reader and the consumer of a channel move in any order.  A move takes one thing from what is still
to be done (`todo_of_move`) and keeps the messages in the order of the requests (`sound_of_move`); while
the exchange is not over, somebody can move (`exists_step`).  So every schedule is finite, no schedule
ends early, and the consumer gets the reports of the records, one after the other, each as if its record
had been read alone.
-/

namespace Ntfs.Content

/-- What is said about one record: its content, and that it is done or why it failed. -/
inductive IsReport (disk : Disk) (g : Geometry) (t : Table) (key : StreamKey) (id : Nat) :
    List Message → Prop
  | done {chunks : List Buffer} {out : Buffer}
      (hread : (ofStream disk g t id key).result = .ok out)
      (hbytes : (chunks.map Buffer.toList).flatten = out.toList) :
      IsReport disk g t key id (chunks.map (.data id) ++ [.done id out.size])
  | failed {e : Failure} (hread : (ofStream disk g t id key).result = .error e) :
      IsReport disk g t key id
        ((walkStream disk g t id key).chunks.map (.data id) ++ [.failed id e.message])

/-- Reading one record on its own gives a report: chunks of content, and one last message. -/
theorem isReport_report (disk : Disk) (g : Geometry) (t : Table) (key : StreamKey) (id : Nat) :
    IsReport disk g t key id (report disk g t key id) := by
  rw [report, messagesOf]
  cases hwalk : (walkStream disk g t id key).result with
  | error e => exact .failed ((ofStream_result t id key e).mpr hwalk)
  | ok size =>
      have hcollect : (ofStream disk g t id key).result =
          .ok (Buffer.ofList (walkStream disk g t id key).content) :=
        Trace.collect_result_eq_ok_iff.mpr ⟨⟨size, hwalk⟩, Buffer.toList_ofList _⟩
      have hsize : size = (Buffer.ofList (walkStream disk g t id key).content).size := by
        rw [← Buffer.length_toList, Buffer.toList_ofList]
        exact (walkStream_counts disk g t id key size hwalk).symm
      rw [hsize]
      exact .done hcollect (Buffer.toList_ofList _).symm

/-- Reading many records never fails, and gives the report of each in turn. -/
theorem messages_result (disk : Disk) (g : Geometry) (t : Table) (key : StreamKey)
    (ids : List Nat) :
    (messages disk g t ids key).result = .ok (ids.flatMap (report disk g t key)) := by
  rw [messages]
  exact congrArg Except.ok (List.flatMap_map ..)

namespace Exchange

variable {reportOf : Nat → List Message} {capacity : Nat} {ids : List Nat} {s s' : Exchange}

/-- The moves of two parties of which neither leaves too early. -/
inductive Move (reportOf : Nat → List Message) (s : Exchange) : Exchange → Prop
  | send {m : Message} {rest : List Message} (hopen : s.closed = false)
      (hunsent : s.unsent = m :: rest) (hroom : s.inFlight.length < s.room) :
      Move reportOf s { s with unsent := rest, inFlight := s.inFlight ++ [m] }
  | begin {id : Nat} {later : List Nat} (hopen : s.closed = false) (hunsent : s.unsent = [])
      (hwaiting : s.waiting = id :: later) :
      Move reportOf s { s with waiting := later, unsent := reportOf id }
  | close (hopen : s.closed = false) (hunsent : s.unsent = []) (hwaiting : s.waiting = []) :
      Move reportOf s { s with closed := true }
  | take {m : Message} {rest : List Message} (hstays : s.gone = false)
      (hinFlight : s.inFlight = m :: rest) :
      Move reportOf s { s with inFlight := rest, received := s.received ++ [m] }
  | leave (hstays : s.gone = false) (hinFlight : s.inFlight = []) (hclosed : s.closed = true) :
      Move reportOf s { s with gone := true }

/-- What holds in every state: the channel is not overfull, no message is lost or changes its place,
and a party lets go only when nothing is left for it. -/
structure Sound (reportOf : Nat → List Message) (capacity : Nat) (ids : List Nat) (s : Exchange) :
    Prop where
  room_eq : s.room = max capacity 1
  fits : s.inFlight.length ≤ s.room
  order : s.received ++ s.inFlight ++ s.unsent ++ s.waiting.flatMap reportOf = ids.flatMap reportOf
  of_closed : s.closed = true → s.unsent = [] ∧ s.waiting = []
  of_gone : s.gone = true → s.closed = true ∧ s.inFlight = []

/-- How many moves are left: a message is sent and taken, a record is begun, and both parties let
go. -/
def todo (reportOf : Nat → List Message) (s : Exchange) : Nat :=
  2 * (s.unsent.length + (s.waiting.flatMap reportOf).length) + s.waiting.length + s.inFlight.length +
    (!s.closed).toNat + (!s.gone).toNat

/-- The invariant holds before anyone has moved. -/
theorem sound_start (reportOf : Nat → List Message) (capacity : Nat) (ids : List Nat) :
    Sound reportOf capacity ids (start capacity ids) where
  room_eq := rfl
  fits := Nat.zero_le _
  order := rfl
  of_closed := by
    intro h
    cases h
  of_gone := by
    intro h
    cases h

/-- Each step that a party takes is one of the moves.  The consumer stays as long as the channel is open,
so a message is never dropped. -/
theorem move_of_step {p : Party} (hs : Sound reportOf capacity ids s) (h : step reportOf p s = some s') :
    Move reportOf s s' := by
  cases p with
  | reader =>
      simp only [step, readerStep] at h
      split at h
      · cases h
      rename_i hclosed
      have hopen : s.closed = false := Bool.eq_false_iff.mpr hclosed
      split at h
      · rename_i m rest hunsent
        have hstays : ¬ s.gone = true := fun hgone => hclosed (hs.of_gone hgone).1
        rw [send, if_neg hstays] at h
        split at h
        · rename_i hroom
          cases h
          exact .send hopen hunsent hroom
        · cases h
      · rename_i hunsent
        split at h
        · rename_i hwaiting
          cases h
          exact .begin hopen hunsent hwaiting
        · rename_i hwaiting
          cases h
          exact .close hopen hunsent hwaiting
  | consumer =>
      simp only [step, consumerStep] at h
      split at h
      · cases h
      rename_i hgone
      have hstays : s.gone = false := Bool.eq_false_iff.mpr hgone
      split at h
      · rename_i hinFlight
        cases h
        exact .take hstays hinFlight
      · rename_i hinFlight
        split at h
        · rename_i hclosed
          cases h
          exact .leave hstays hinFlight hclosed
        · cases h

/-- Every move keeps the invariant. -/
theorem sound_of_move (hs : Sound reportOf capacity ids s) (h : Move reportOf s s') :
    Sound reportOf capacity ids s' := by
  have horder := hs.order
  cases h with
  | send hopen hunsent hroom =>
      refine ⟨hs.room_eq, ?_, ?_, fun h => ?_, fun h => ?_⟩
      · rw [List.length_append]
        exact hroom
      · rw [← horder, hunsent]
        simp
      · exact absurd h (Bool.eq_false_iff.mp hopen)
      · exact absurd (hs.of_gone h).1 (Bool.eq_false_iff.mp hopen)
  | begin hopen hunsent hwaiting =>
      refine ⟨hs.room_eq, hs.fits, ?_, fun h => ?_, hs.of_gone⟩
      · rw [← horder, hunsent, hwaiting]
        simp
      · exact absurd h (Bool.eq_false_iff.mp hopen)
  | close hopen hunsent hwaiting =>
      refine ⟨hs.room_eq, hs.fits, horder, fun _ => ⟨hunsent, hwaiting⟩, fun h => ?_⟩
      exact absurd (hs.of_gone h).1 (Bool.eq_false_iff.mp hopen)
  | take hstays hinFlight =>
      refine ⟨hs.room_eq, ?_, ?_, hs.of_closed, fun h => ?_⟩
      · have hfits := hs.fits
        rw [hinFlight, List.length_cons] at hfits
        exact Nat.le_of_succ_le hfits
      · rw [← horder, hinFlight]
        simp
      · exact absurd h (Bool.eq_false_iff.mp hstays)
  | leave hstays hinFlight hclosed =>
      exact ⟨hs.room_eq, hs.fits, horder, hs.of_closed, fun _ => ⟨hclosed, hinFlight⟩⟩

/-- Every move is one of those that were left. -/
theorem todo_of_move (h : Move reportOf s s') : todo reportOf s' + 1 = todo reportOf s := by
  cases h with
  | send hopen hunsent hroom =>
      simp only [todo, hunsent, List.length_append, List.length_cons, List.length_nil]
      omega
  | begin hopen hunsent hwaiting =>
      simp only [todo, hunsent, hwaiting, List.flatMap_cons, List.length_append, List.length_cons,
        List.length_nil]
      omega
  | close hopen hunsent hwaiting => simp [todo, hopen]; omega
  | take hstays hinFlight =>
      simp only [todo, hinFlight, List.length_cons]
      omega
  | leave hstays hinFlight hclosed => simp [todo, hstays]

/-- No schedule ends in a deadlock. -/
theorem exists_step (hs : Sound reportOf capacity ids s) (h : s.isOver = false) :
    ∃ p s', step reportOf p s = some s' := by
  have hgo : s.gone = false ∧ (s.inFlight ≠ [] ∨ s.closed = true) →
      ∃ s', step reportOf .consumer s = some s' := by
    rintro ⟨hstays, hnext⟩
    simp only [step, consumerStep, hstays]
    cases hinFlight : s.inFlight with
    | cons m rest => exact ⟨_, rfl⟩
    | nil =>
        have hclosed : s.closed = true := hnext.resolve_left fun hne => hne hinFlight
        rw [hclosed]
        exact ⟨_, rfl⟩
  cases hclosed : s.closed with
  | true =>
      have hstays : s.gone = false := by simpa [isOver, hclosed] using h
      exact ⟨.consumer, hgo ⟨hstays, .inr hclosed⟩⟩
  | false =>
      have hstays : s.gone = false :=
        Bool.eq_false_iff.mpr fun hgone => by simp [(hs.of_gone hgone).1] at hclosed
      cases hunsent : s.unsent with
      | nil =>
          refine ⟨.reader, ?_⟩
          simp only [step, readerStep, hclosed, hunsent]
          cases s.waiting with
          | nil => exact ⟨_, rfl⟩
          | cons id later => exact ⟨_, rfl⟩
      | cons m rest =>
          by_cases hroom : s.inFlight.length < s.room
          · refine ⟨.reader, { s with unsent := rest, inFlight := s.inFlight ++ [m] }, ?_⟩
            simp only [step, readerStep, hclosed, hunsent, send, hstays]
            exact if_pos hroom
          · -- A full channel is not empty, for it has room for one message at least.
            have hne : s.inFlight ≠ [] := by
              intro hnil
              have hroomEq := hs.room_eq
              rw [hnil, List.length_nil] at hroom
              omega
            exact ⟨.consumer, hgo ⟨hstays, .inl hne⟩⟩

/-! ## Schedules -/

/-- The invariant holds along every schedule, and each step of it leaves one move less. -/
theorem sound_of_run {schedule : List Party} (hs : Sound reportOf capacity ids s)
    (h : run reportOf schedule s = some s') :
    Sound reportOf capacity ids s' ∧ schedule.length + todo reportOf s' = todo reportOf s := by
  induction schedule generalizing s with
  | nil =>
      cases h
      exact ⟨hs, Nat.zero_add _⟩
  | cons p rest ih =>
      obtain ⟨next, hstep, hrest⟩ := Option.bind_eq_some_iff.mp h
      have hmove := move_of_step hs hstep
      obtain ⟨hs', hlength⟩ := ih (sound_of_move hs hmove) hrest
      have htodo := todo_of_move hmove
      rw [List.length_cons]
      exact ⟨hs', by omega⟩

/-- When both parties have let go, the reports of all records have arrived. -/
theorem received_of_isOver (hs : Sound reportOf capacity ids s) (h : s.isOver = true) :
    s.received = ids.flatMap reportOf := by
  obtain ⟨hclosed, hgone⟩ := Bool.and_eq_true_iff.mp h
  obtain ⟨hunsent, hwaiting⟩ := hs.of_closed hclosed
  have horder := hs.order
  rw [(hs.of_gone hgone).2, hunsent, hwaiting] at horder
  simpa using horder

/-- Whoever moves when, and however few messages the channel holds: the exchange goes on until it is
over, and ends after a known number of moves.  At any time the messages received, in the channel and
still to come are the reports of the records in the order of the requests, and at the end all of them
were received, each as its record gives it when it is read alone. -/
theorem run_delivers_reports (disk : Disk) (g : Geometry) (t : Table) (key : StreamKey)
    (capacity : Nat) (ids : List Nat) {schedule : List Party} {s : Exchange}
    (h : run (report disk g t key) schedule (start capacity ids) = some s) :
    s.inFlight.length ≤ max capacity 1 ∧
    (s.isOver = false → ∃ p s', step (report disk g t key) p s = some s') ∧
    schedule.length ≤ 2 * (ids.flatMap (report disk g t key)).length + ids.length + 2 ∧
    ∃ blocks : List (List Message),
      List.Forall₂ (IsReport disk g t key) ids blocks ∧
      s.received ++ s.inFlight ++ s.unsent ++ s.waiting.flatMap (report disk g t key) =
        blocks.flatten ∧
      (s.isOver = true →
        s.received = blocks.flatten ∧ (messages disk g t ids key).result = .ok s.received) := by
  obtain ⟨hs, hlength⟩ := sound_of_run (sound_start (report disk g t key) capacity ids) h
  refine ⟨hs.room_eq ▸ hs.fits, exists_step hs, ?_, ids.map (report disk g t key), ?_, ?_, ?_⟩
  · have hstart : todo (report disk g t key) (start capacity ids) =
        2 * (ids.flatMap (report disk g t key)).length + ids.length + 2 := by
      simp [todo, start]
    omega
  · refine List.forall₂_map_right_iff.mpr (List.forall₂_same.mpr fun id _ => ?_)
    exact isReport_report disk g t key id
  · rw [hs.order, List.flatMap_def]
  · intro hover
    have hreceived := received_of_isOver hs hover
    rw [messages_result, hreceived]
    exact ⟨List.flatMap_def .., rfl⟩

/-- A file of three bytes that stand in its record. -/
def shortTable : Table :=
  ⟨#[{ Record.blank 0 (RecordHeader.decode []) with
    attributes := [⟨⟨.data, 0x20, false, 0, 0, 0, 0, none⟩, .resident ⟨3, 0x18, 0⟩,
      .data [0x6F, 0x6E, 0x65]⟩] }]⟩

theorem report_shortTable :
    report (.ofImage slowImage) ⟨0, 2, 1⟩ shortTable .content 0 =
      [.data 0 (.ofList [0x6F, 0x6E, 0x65]), .done 0 3] := by
  have hparts : parts shortTable 0 .content =
      [(0, ⟨⟨.data, 0x20, false, 0, 0, 0, 0, none⟩, .resident ⟨3, 0x18, 0⟩,
        .data [0x6F, 0x6E, 0x65]⟩)] := by
    have hchain : shortTable.chain 0 = [0] := by
      simp [Table.chain, trail, Table.size, shortTable]
    rw [parts, Table.chainRecords, hchain]
    decide +kernel
  rw [report, walkStream, if_pos (by decide), hparts]
  decide +kernel

/-- A channel for a single message, and a record between whose reading and the end another one
fails. -/
theorem run_delivers_reports_shortTable :
    ∃ s, run (report (.ofImage slowImage) ⟨0, 2, 1⟩ shortTable .content)
        [.reader, .reader, .consumer, .reader, .consumer, .reader, .reader, .consumer, .reader,
          .consumer] (start 0 [0, 7]) = some s ∧
      s.isOver = true ∧
      s.received = [.data 0 (.ofList [0x6F, 0x6E, 0x65]), .done 0 3,
        .failed 7 "record 7 is outside the table"] ∧
      ∃ blocks : List (List Message), s.received = blocks.flatten ∧
        List.Forall₂ (IsReport (.ofImage slowImage) ⟨0, 2, 1⟩ shortTable .content) [0, 7] blocks := by
  have houtside : report (.ofImage slowImage) ⟨0, 2, 1⟩ shortTable .content 7 =
      [.failed 7 "record 7 is outside the table"] := by
    rw [report, walkStream, if_neg (by decide)]
    rfl
  obtain ⟨s, hrun, hover, hreceived⟩ :
      ∃ s, run (report (.ofImage slowImage) ⟨0, 2, 1⟩ shortTable .content)
          [.reader, .reader, .consumer, .reader, .consumer, .reader, .reader, .consumer, .reader,
            .consumer] (start 0 [0, 7]) = some s ∧
        s.isOver = true ∧
        s.received = [.data 0 (.ofList [0x6F, 0x6E, 0x65]), .done 0 3,
          .failed 7 "record 7 is outside the table"] := by
    simp [run, step, readerStep, consumerStep, start, send, isOver, report_shortTable, houtside]
  obtain ⟨-, -, -, blocks, hblocks, -, hall⟩ := run_delivers_reports _ _ _ _ _ _ hrun
  exact ⟨s, hrun, hover, hreceived, blocks, (hall hover).1, hblocks⟩

end Exchange

end Ntfs.Content
