import Gatehouse.Audit

/-!
What a queue of audit entries gives out.

Entries are recorded, the consumer receives, and at some time the queue may be closed, in any order
(`AuditQueue.Turn`). What has been received and what still waits are together the entries that were not
lost, in the order in which they were recorded (`AuditQueue.received_append_waiting`). An entry is lost
only while the queue is full or once it is closed (`AuditQueue.Loses`), and who receives while an entry
waits is given the oldest one (`AuditQueue.received_snoc`).
-/

namespace Gatehouse.AuditQueue

/-! ### Turns -/

/-- What may happen to a queue. -/
inductive Turn where
  | record (e : AuditEntry)
  | receive
  | close
  deriving Repr, DecidableEq

/-- The entry that the consumer receives in a turn, if any, and the queue afterwards. -/
def Turn.after (q : AuditQueue) : Turn → List AuditEntry × AuditQueue
  | .record e => ([], q.record e)
  | .receive => (q.receive.1.toList, q.receive.2)
  | .close => ([], q.close)

/-- The entries that the consumer receives in a sequence of turns, and the queue afterwards. -/
def play : List Turn → AuditQueue → List AuditEntry × AuditQueue
  | [], q => ([], q)
  | turn :: rest, q =>
    let (first, q) := turn.after q
    let (later, q) := play rest q
    (first ++ later, q)

/-- The entries that are recorded in a sequence of turns. -/
def recorded : List Turn → List AuditEntry
  | [] => []
  | .record e :: rest => e :: recorded rest
  | .receive :: rest | .close :: rest => recorded rest

/-- The entries of a new queue that nobody has received after some turns. -/
def unread (buffer : Nat) (past : List Turn) : List AuditEntry :=
  (play past (ofBuffer buffer)).2.waiting

/-- An entry is lost if it is recorded after these turns: the queue has been closed, or the unread entries
fill it. -/
def Loses (buffer : Nat) (past : List Turn) : Prop :=
  .close ∈ past ∨ max buffer 1 ≤ (unread buffer past).length

instance (buffer : Nat) (past : List Turn) : Decidable (Loses buffer past) := by
  unfold Loses; infer_instance

/-- The entries that are recorded in a sequence of turns and not lost, after the turns of the past. -/
def kept (buffer : Nat) (past : List Turn) : List Turn → List AuditEntry
  | [] => []
  | .record e :: rest =>
    if Loses buffer past then kept buffer (past ++ [.record e]) rest
    else e :: kept buffer (past ++ [.record e]) rest
  | .receive :: rest => kept buffer (past ++ [.receive]) rest
  | .close :: rest => kept buffer (past ++ [.close]) rest

variable {q : AuditQueue} {past rest : List Turn} {turn : Turn} {buffer : Nat} {e : AuditEntry}

/-! ### The queue after turns -/

theorem play_append :
    (play (past ++ rest) q).2 = (play rest (play past q).2).2 := by
  induction past generalizing q with
  | nil => rfl
  | cons first past ih => exact ih

/-- A turn neither widens a queue nor opens it again. -/
theorem Turn.after_frame (q : AuditQueue) (turn : Turn) : (turn.after q).2.buffer = q.buffer ∧
    ((turn.after q).2.closed = true ↔ q.closed = true ∨ turn = .close) := by
  cases turn with
  | record e =>
      simp only [Turn.after, AuditQueue.record]
      split <;> simp
  | receive =>
      simp only [Turn.after, AuditQueue.receive]
      split <;> simp
  | close => simp [Turn.after, AuditQueue.close]

theorem play_frame (past : List Turn) (q : AuditQueue) : (play past q).2.buffer = q.buffer ∧
    ((play past q).2.closed = true ↔ q.closed = true ∨ .close ∈ past) := by
  induction past generalizing q with
  | nil => simp [play]
  | cons first past ih =>
      obtain ⟨buffer, closed⟩ := Turn.after_frame q first
      obtain ⟨bufferAfter, closedAfter⟩ := ih (first.after q).2
      refine ⟨bufferAfter.trans buffer, closedAfter.trans ?_⟩
      rw [closed, List.mem_cons, or_assoc, eq_comm (a := first)]

/-- An entry that is lost changes nothing, any other waits behind those that are unread. -/
theorem record_after_play : (play past (ofBuffer buffer)).2.record e =
    if Loses buffer past then (play past (ofBuffer buffer)).2
    else { (play past (ofBuffer buffer)).2 with waiting := unread buffer past ++ [e] } := by
  obtain ⟨width, closed⟩ := play_frame past (ofBuffer buffer)
  have full : ((play past (ofBuffer buffer)).2.closed ||
      max 1 (play past (ofBuffer buffer)).2.buffer ≤ (play past (ofBuffer buffer)).2.waiting.length) =
        true ↔ Loses buffer past := by
    rw [Bool.or_eq_true, decide_eq_true_iff, closed, width, Nat.max_comm]
    simp [Loses, unread, ofBuffer]
  unfold AuditQueue.record
  simp only [full]
  rfl

theorem unread_snoc : unread buffer (past ++ [turn]) =
    (turn.after (play past (ofBuffer buffer)).2).2.waiting := by
  unfold unread
  rw [play_append]
  rfl

/-! ### What is received -/

theorem received_append :
    (play (past ++ rest) q).1 = (play past q).1 ++ (play rest (play past q).2).1 := by
  induction past generalizing q with
  | nil => rfl
  | cons first past ih => simp only [List.cons_append, play, ih, List.append_assoc]

/-- Who receives is given the oldest entry that is unread, if there is one. -/
theorem received_snoc (buffer : Nat) (past : List Turn) (turn : Turn) :
    (play (past ++ [turn]) (ofBuffer buffer)).1 = (play past (ofBuffer buffer)).1 ++
      if turn = .receive then (unread buffer past).take 1 else [] := by
  rw [received_append]
  congr 1
  cases turn with
  | record e => rfl
  | receive =>
      rw [if_pos rfl]
      simp only [play, Turn.after, AuditQueue.receive, unread, List.append_nil]
      split <;> rename_i waiting <;> rw [waiting] <;> rfl
  | close => rfl

/-- The induction is on the turns to come: the unread entries of the past come first. -/
theorem received_append_waiting_after (past rest : List Turn) :
    (play rest (play past (ofBuffer buffer)).2).1 ++
        (play rest (play past (ofBuffer buffer)).2).2.waiting =
      unread buffer past ++ kept buffer past rest := by
  induction rest generalizing past with
  | nil => exact (List.append_nil _).symm
  | cons turn rest ih =>
      have later := ih (past ++ [turn])
      rw [play_append] at later
      have played : play (turn :: rest) (play past (ofBuffer buffer)).2 =
          ((turn.after (play past (ofBuffer buffer)).2).1 ++
            (play rest (turn.after (play past (ofBuffer buffer)).2).2).1,
          (play rest (turn.after (play past (ofBuffer buffer)).2).2).2) := rfl
      have single : (play [turn] (play past (ofBuffer buffer)).2).2 =
          (turn.after (play past (ofBuffer buffer)).2).2 := rfl
      rw [single] at later
      rw [played, List.append_assoc, later, unread_snoc]
      cases turn with
      | record e =>
          simp only [Turn.after, record_after_play, kept]
          split <;> simp [unread]
      | receive =>
          simp only [Turn.after, AuditQueue.receive, kept, unread]
          split <;> rename_i waiting <;> simp [waiting]
      | close => rfl

/-- What is received and what still waits are the entries that are not lost, in order. -/
theorem received_append_waiting (buffer : Nat) (turns : List Turn) :
    (play turns (ofBuffer buffer)).1 ++ (play turns (ofBuffer buffer)).2.waiting =
      kept buffer [] turns :=
  received_append_waiting_after [] turns

/-- A queue of one entry loses the second, and the one that comes after it is closed. -/
example (a b c d : AuditEntry) :
    kept 1 [] [.record a, .record b, .receive, .record c, .close, .record d] = [a, c] := rfl

theorem kept_append (past turns rest : List Turn) :
    kept buffer past (turns ++ rest) = kept buffer past turns ++ kept buffer (past ++ turns) rest := by
  induction turns generalizing past with
  | nil => simp [kept]
  | cons turn turns ih =>
      have later := ih (past ++ [turn])
      rw [List.append_assoc, List.singleton_append] at later
      cases turn with
      | record e =>
          simp only [List.cons_append, kept, later]
          split <;> rfl
      | receive => exact later
      | close => exact later

theorem kept_sublist_recorded (buffer : Nat) (past turns : List Turn) :
    (kept buffer past turns).Sublist (recorded turns) := by
  induction turns generalizing past with
  | nil => exact List.Sublist.slnil
  | cons turn rest ih =>
      cases turn with
      | record e =>
          unfold kept recorded
          split
          · exact (ih _).cons e
          · exact (ih _).cons_cons e
      | receive => exact ih _
      | close => exact ih _

theorem received_sublist_recorded (buffer : Nat) (turns : List Turn) :
    (play turns (ofBuffer buffer)).1.Sublist (recorded turns) := by
  refine List.Sublist.trans ?_ (kept_sublist_recorded buffer [] turns)
  rw [← received_append_waiting]
  exact List.sublist_append_left ..

/-- Whatever is recorded is received, waits, or was lost. -/
theorem received_or_waits_or_loses (past : List Turn) (e : AuditEntry) (rest : List Turn) :
    e ∈ (play (past ++ .record e :: rest) (ofBuffer buffer)).1 ∨
      e ∈ (play (past ++ .record e :: rest) (ofBuffer buffer)).2.waiting ∨ Loses buffer past := by
  by_cases loses : Loses buffer past
  · exact Or.inr (Or.inr loses)
  · have mem : e ∈ kept buffer [] (past ++ .record e :: rest) := by
      rw [kept_append, List.nil_append, kept, if_neg loses]
      exact List.mem_append_right _ (List.mem_cons_self ..)
    rw [← received_append_waiting] at mem
    rcases List.mem_append.mp mem with received | waits
    · exact Or.inl received
    · exact Or.inr (Or.inl waits)

end Gatehouse.AuditQueue

namespace Gatehouse

/-- A sink that is a queue takes entries in as the queue does. -/
theorem AuditSink.foldl_record_queue (entries : List AuditEntry) (q : AuditQueue) :
    entries.foldl AuditSink.record (.queue q) =
      .queue (AuditQueue.play (entries.map AuditQueue.Turn.record) q).2 := by
  induction entries generalizing q with
  | nil => rfl
  | cons e rest ih => exact ih (q.record e)

end Gatehouse
