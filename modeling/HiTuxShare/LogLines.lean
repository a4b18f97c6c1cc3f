import HiTuxShare.ChatLogger
import HiTuxShare.EndedLines
import HiTuxShare.EventMachine

namespace HiTuxShare
set_option autoImplicit true

/-- A message, and what the system answers while it is logged. -/
structure LogCall where
  answer : LogAnswer := {}
  message : ChatMessage

/-- The line of a message, without the end of a line. -/
def LogCall.line (call : LogCall) : List Char :=
  (logLine call.answer.timeOfDay call.message).toList.dropLast

theorem logLine_toList (timestamp : String) (message : ChatMessage) :
    ∃ line, (logLine timestamp message).toList = line ++ ['\n'] := by
  rw [logLine]
  split
  · exact ⟨_, String.toList_append⟩
  · split
    · exact ⟨_, String.toList_append⟩
    · exact ⟨_, String.toList_append⟩

theorem LogCall.line_ended (call : LogCall) :
    (logLine call.answer.timeOfDay call.message).toList = call.line ++ ['\n'] := by
  obtain ⟨line, hline⟩ := logLine_toList call.answer.timeOfDay call.message
  rw [LogCall.line, hline, List.dropLast_concat]

/-- What can break a line comes from outside. -/
theorem LogCall.newline_mem_line_iff {call : LogCall}
    (htime : '\n' ∉ call.answer.timeOfDay.toList) :
    '\n' ∈ call.line ↔
      '\n' ∈ call.message.senderName.toList ∨ '\n' ∈ call.message.text.toList := by
  have hended (text : String) : (text ++ "\n").toList.dropLast = text.toList := by
    rw [String.toList_append]
    exact List.dropLast_concat
  have hmarker : '\n' ∉ (if call.message.isPrivate then "[private] " else "").toList := by
    split <;> decide
  have hopening : '\n' ∉ "[".toList ∧ '\n' ∉ "] ".toList := by decide
  have hmarks : '\n' ∉ "* ".toList ∧ '\n' ∉ " ".toList ∧ '\n' ∉ "<".toList ∧
      '\n' ∉ "> ".toList ∧ '\n' ∉ "] *** ".toList := by decide
  rw [LogCall.line, logLine]
  by_cases haction : call.message.isAction = true
  · rw [if_pos haction, hended]
    simp only [String.toList_append, List.mem_append, hopening, hmarks, hmarker, htime, false_or,
      or_false]
  · rw [if_neg haction]
    by_cases hname : call.message.senderName = ""
    · rw [if_neg (not_not.mpr hname), hended, hname]
      simp only [String.toList_append, List.mem_append, hopening, hmarks, htime, false_or]
      exact (or_iff_right List.not_mem_nil).symm
    · rw [if_pos hname, hended]
      simp only [String.toList_append, List.mem_append, hopening, hmarks, hmarker, htime, false_or,
        or_false]

/-- A logger with what it has written, and for which call. -/
structure LogBook where
  logger : ChatLogger
  written : List (LogCall × LogEntry) := []

namespace LogBook

/-- What has been appended to a file. -/
def textOf (b : LogBook) (path : String) : List Char :=
  (b.written.filter fun e => e.2.path = path).flatMap fun e => e.2.line.toList

/-- Each call has brought one line to one of the files, and there are no others. -/
structure OneLineEach (b : LogBook) (calls : List LogCall) : Prop where
  calls : b.written.map Prod.fst = calls
  lines : ∀ path, endedLines '\n' (b.textOf path) =
    (b.written.filter fun e => e.2.path = path).map fun e => e.1.line

/-- What has been written is the lines of the calls. -/
def Faithful (b : LogBook) : Prop :=
  ∀ e ∈ b.written, e.2.line = logLine e.1.answer.timeOfDay e.1.message

theorem Faithful.lines_iff {b : LogBook} (h : Faithful b) (path : String) :
    endedLines '\n' (b.textOf path) =
        (b.written.filter fun e => e.2.path = path).map (fun e => e.1.line) ↔
      ∀ e ∈ b.written, e.2.path = path → '\n' ∉ e.1.line := by
  have htext : b.textOf path = ((b.written.filter fun e => e.2.path = path).map
      fun e => e.1.line).flatMap fun line => line ++ ['\n'] := by
    rw [textOf, List.flatMap_map]
    apply List.flatMap_congr
    intro e hm
    rw [h e (List.mem_of_mem_filter hm)]
    exact e.1.line_ended
  rw [htext, endedLines_flatMap_iff, List.forall_mem_map]
  simp only [List.mem_filter, decide_eq_true_eq, and_imp]

section
variable [MuscleText]

def log (b : LogBook) (call : LogCall) : LogBook :=
  let (logger, entry) := b.logger.log call.answer call.message
  { logger, written := b.written ++ (entry.map fun e => (call, e)).toList }

def machine : EventMachine LogBook LogCall := ⟨log⟩

/-- Logging is enabled, and there is a file to write to. -/
def FileOpen (b : LogBook) (call : LogCall) : Prop :=
  b.logger.isEnabled = true ∧ (b.logger.ensureFileOpen call.answer).file.isSome = true

theorem log_written {b : LogBook} {call : LogCall} (h : FileOpen b call) :
    ∃ path, (b.log call).written =
      b.written ++ [(call, ⟨path, logLine call.answer.timeOfDay call.message⟩)] := by
  obtain ⟨file, hfile⟩ := Option.isSome_iff_exists.mp h.2
  refine ⟨file.path, ?_⟩
  have henabled : ¬b.logger.isEnabled = false := by
    rw [h.1]
    exact Bool.true_eq_false_eq_False
  simp only [log, ChatLogger.log, if_neg henabled, hfile, Option.map_some, Option.toList_some]

theorem run_written {b : LogBook} (h : machine.EveryStep FileOpen b calls) (hb : Faithful b) :
    (machine.run b calls).written.map Prod.fst = b.written.map Prod.fst ++ calls ∧
      Faithful (machine.run b calls) := by
  induction calls generalizing b with
  | nil => exact ⟨(List.append_nil _).symm, hb⟩
  | cons call calls ih =>
    obtain ⟨path, hwritten⟩ := log_written h.1
    have hlater : Faithful (b.log call) := by
      intro e hm
      rw [hwritten] at hm
      rcases List.mem_append.mp hm with hm | hm
      · exact hb e hm
      · rw [List.mem_singleton.mp hm]
    obtain ⟨hcalls, hfaithful⟩ := ih h.2 hlater
    refine ⟨?_, hfaithful⟩
    rw [EventMachine.run_cons, hcalls]
    change (b.log call).written.map Prod.fst ++ calls = _
    rw [hwritten, List.map_append, List.append_assoc]
    rfl

/-- Each message becomes one line exactly if none of them brings the end of a line with it. -/
theorem one_line_each_iff {logger : ChatLogger}
    (hopen : machine.EveryStep FileOpen ⟨logger, []⟩ calls)
    (htime : ∀ call ∈ calls, '\n' ∉ call.answer.timeOfDay.toList) :
    OneLineEach (machine.run ⟨logger, []⟩ calls) calls ↔ ∀ call ∈ calls,
      '\n' ∉ call.message.senderName.toList ∧ '\n' ∉ call.message.text.toList := by
  have hnew : Faithful ⟨logger, []⟩ := fun e hm => absurd hm List.not_mem_nil
  obtain ⟨hcalls, hfaithful⟩ := run_written hopen hnew
  rw [List.map_nil, List.nil_append] at hcalls
  have hunbroken : (∀ call ∈ calls, '\n' ∉ call.line) ↔ ∀ call ∈ calls,
      '\n' ∉ call.message.senderName.toList ∧ '\n' ∉ call.message.text.toList := by
    apply forall₂_congr
    intro call hm
    rw [LogCall.newline_mem_line_iff (htime call hm), not_or]
  rw [← hunbroken]
  constructor
  · intro h call hm
    rw [← hcalls] at hm
    obtain ⟨e, he, rfl⟩ := List.mem_map.mp hm
    exact (hfaithful.lines_iff e.2.path).mp (h.lines _) e he rfl
  · intro h
    refine ⟨hcalls, fun path => (hfaithful.lines_iff path).mpr ?_⟩
    intro e hm _
    exact h e.1 (hcalls ▸ List.mem_map_of_mem hm)

end

section
attribute [local instance] asciiText

def loggingChat : ChatLogger := { isEnabled := true, directory := "/logs" }

def heard (senderName text : String) : LogCall where
  answer := { timeOfDay := "12:00:00" }
  message := { type := .remoteUserChatMessage, senderSessionId := "2", senderName, text }

/-- With a line of his own the sender writes one for somebody else. -/
theorem forged_line : ¬∀ (logger : ChatLogger) (calls : List LogCall),
    machine.EveryStep FileOpen ⟨logger, []⟩ calls →
      (∀ call ∈ calls, '\n' ∉ call.answer.timeOfDay.toList) →
        OneLineEach (machine.run ⟨logger, []⟩ calls) calls := by
  intro h
  have hlines := (h loggingChat [heard "eve" "hi\n[12:00:00] <bob> I agree"]
    ⟨⟨rfl, by decide⟩, trivial⟩ (by decide)).lines "/logs/chat-unknown.log"
  have hforged : endedLines '\n' ((machine.run ⟨loggingChat, []⟩
      [heard "eve" "hi\n[12:00:00] <bob> I agree"]).textOf "/logs/chat-unknown.log") =
        ["[12:00:00] <eve> hi".toList, "[12:00:00] <bob> I agree".toList] := by decide
  rw [hforged] at hlines
  exact absurd (congrArg List.length hlines) (by decide)

theorem one_line_each_heard :
    (OneLineEach (machine.run ⟨loggingChat, []⟩ [heard "eve" "hi", heard "bob" "I agree"])
        [heard "eve" "hi", heard "bob" "I agree"] ↔
      ∀ call ∈ [heard "eve" "hi", heard "bob" "I agree"],
        '\n' ∉ call.message.senderName.toList ∧ '\n' ∉ call.message.text.toList) ∧
    ∀ call ∈ [heard "eve" "hi", heard "bob" "I agree"],
      '\n' ∉ call.message.senderName.toList ∧ '\n' ∉ call.message.text.toList :=
  ⟨one_line_each_iff ⟨⟨rfl, by decide⟩, ⟨rfl, by decide⟩, trivial⟩ (by decide), by decide⟩

end

end LogBook

end HiTuxShare
