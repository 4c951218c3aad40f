import Mathlib.Data.List.Induction
import PlatformClasses.Proofs.Outcome
import PlatformClasses.Log.Journal

/-!
# Opening a journal again and again

A journal has three parts that should agree: the places that records go to, whether it is open, and the
path of its log file.  `OpensTo` says what one opening can come to.  If it succeeds, a journal that is
settled, which means closed or open with the console and its log file, is settled again.  If it fails, the
console stays behind in a journal that is not open.

So over any sequence of requests, on whatever files there are at the time, the parts agree after each of
them and a failure leaves them as they were exactly as long as none fails.  Someone who makes requests one
after the other and handles no failure gets to the end in just these cases (`keeps_law_iff_succeeds`).
-/

namespace PlatformClasses.Journal

/-- A request at some moment, with the files that there are then. -/
structure Operation where
  now : LogMoment
  tree : FileTree
  request : Request

/-- What an operation comes to. -/
def replyTo (j : Journal) (op : Operation) : Reply := j.handle op.now op.tree op.request

/-- The journal after an operation. -/
def after (j : Journal) (op : Operation) : Journal := (j.replyTo op).journal

/-- The failure of an operation. -/
def failureOf (j : Journal) (op : Operation) : Option FileError := (j.replyTo op).failure

/-- The journal after several operations. -/
def afterAll (j : Journal) (ops : List Operation) : Journal := ops.foldl after j

/-- What an operation should do to a journal. -/
structure KeepsLaw (j : Journal) (op : Operation) : Prop where
  /-- The journal is open if and only if records go somewhere. -/
  isOpen_iff : (j.after op).isOpen = true ↔ (j.after op).sinks ≠ []
  /-- It has a log file if and only if records go to a file. -/
  file_iff : (j.after op).file ≠ none ↔ ∃ path, LogSink.file path ∈ (j.after op).sinks
  /-- Opening a journal that is open changes nothing. -/
  again : ∀ directory verbose, op.request = .opening directory verbose → j.isOpen = true →
    j.after op = j
  /-- A failure leaves the journal as it was. -/
  atomic : j.failureOf op ≠ none → j.after op = j

variable (j : Journal)

/-- The law is kept after each of some operations. -/
def LawIsKept (ops : List Operation) : Prop :=
  ∀ done op rest, ops = done ++ op :: rest → (j.afterAll done).KeepsLaw op

/-- None of some operations fails. -/
def NoneFails (ops : List Operation) : Prop :=
  ∀ done op rest, ops = done ++ op :: rest → (j.afterAll done).failureOf op = none

/-- The first of some operations to fail does so with an error. -/
def FirstFails (ops : List Operation) (e : FileError) : Prop :=
  ∃ done op rest, ops = done ++ op :: rest ∧ j.NoneFails done ∧
    (j.afterAll done).failureOf op = some e

/-- Requests as operations, if nothing else changes the files. -/
def operationsOf (j : Journal) (tree : FileTree) : List (LogMoment × Request) → List Operation
  | [] => []
  | (now, request) :: rest =>
    let reply := j.handle now tree request
    ⟨now, tree, request⟩ :: operationsOf reply.journal reply.tree rest

/-! ## What an opening comes to -/

/-- The log file of a moment cannot be had in a directory: the directory cannot be made, or the file
cannot. -/
inductive Refused (now : LogMoment) (tree : FileTree) (d : Path) : FileError → Prop
  | directory {e : FileError} (h : (tree.makeDirectories d).2 = .error e) : Refused now tree d e
  | file {made : FileTree} {e : FileError} (hmade : tree.makeDirectories d = (made, .ok ()))
      (h : prepareFile (d.join (fileName now)) made = .error e) : Refused now tree d e

/-- What opening a journal that is not open can come to: the journal after it, and the failure. -/
inductive OpensTo (now : LogMoment) (tree : FileTree) (verbose : Bool) (j : Journal) :
    Option Path → Journal → Option FileError → Prop
  /-- Only the console is asked for. -/
  | console : OpensTo now tree verbose j none ⟨[.console (consoleLevel verbose)], true, j.file⟩ none
  /-- The log file is there. -/
  | withFile (d : Path) : OpensTo now tree verbose j (some d)
      ⟨[.console (consoleLevel verbose), .file (d.join (fileName now))], true,
        some (d.join (fileName now))⟩ none
  /-- The log file cannot be had. -/
  | failed {d : Path} {e : FileError} (file : Option Path) (h : Refused now tree d e) :
      OpensTo now tree verbose j (some d) ⟨[.console (consoleLevel verbose)], false, file⟩ (some e)

variable {j : Journal}

/-- Opening a journal that is open changes nothing. -/
theorem openIn_of_isOpen (h : j.isOpen = true) (now : LogMoment) (directory : Option Path)
    (verbose : Bool) (tree : FileTree) :
    j.openIn now directory verbose tree = ⟨j, tree, [], none⟩ := by
  unfold openIn
  rw [if_pos h]

/-- Opening a journal that is not open comes to one of the three. -/
theorem opensTo_openIn (h : j.isOpen = false) (now : LogMoment) (directory : Option Path)
    (verbose : Bool) (tree : FileTree) :
    OpensTo now tree verbose j directory (j.openIn now directory verbose tree).journal
      (j.openIn now directory verbose tree).failure := by
  unfold openIn
  rw [if_neg (by simp [h])]
  cases directory with
  | none => exact .console
  | some d =>
      cases hmade : tree.makeDirectories d with
      | mk made result =>
          cases result with
          | error e =>
              simp only [hmade]
              exact .failed _ (.directory (by rw [hmade]))
          | ok _ =>
              cases hfile : prepareFile (d.join (fileName now)) made with
              | error e =>
                  simp only [hmade, hfile]
                  exact .failed _ (.file hmade hfile)
              | ok prepared =>
                  simp only [hmade, hfile]
                  exact .withFile d

variable {now : LogMoment} {directory : Option Path} {verbose : Bool} {tree : FileTree} {e : FileError}

/-- An opening that fails is one of a journal that is not open, and leaves the console behind. -/
theorem openIn_of_failure (h : (j.openIn now directory verbose tree).failure = some e) :
    j.isOpen = false ∧ (∃ d, directory = some d ∧ Refused now tree d e) ∧
      ∃ file, (j.openIn now directory verbose tree).journal =
        ⟨[.console (consoleLevel verbose)], false, file⟩ := by
  cases hopen : j.isOpen with
  | true => simp [openIn_of_isOpen hopen] at h
  | false =>
      have hopens := opensTo_openIn hopen now directory verbose tree
      rw [h] at hopens
      generalize (j.openIn now directory verbose tree).journal = next at hopens ⊢
      cases hopens with
      | failed file hrefused => exact ⟨rfl, ⟨_, rfl, hrefused⟩, file, rfl⟩

/-- An opening fails if and only if the journal is not open yet and its log file cannot be had. -/
theorem failure_openIn_iff :
    (j.openIn now directory verbose tree).failure = some e ↔
      j.isOpen = false ∧ ∃ d, directory = some d ∧ Refused now tree d e := by
  constructor
  · intro hfailure
    obtain ⟨hopen, hrefused, -⟩ := openIn_of_failure hfailure
    exact ⟨hopen, hrefused⟩
  · rintro ⟨hopen, d, rfl, hrefused⟩
    unfold openIn
    rw [if_neg (by simp [hopen])]
    cases hrefused with
    | directory h =>
        cases hmade : tree.makeDirectories d with
        | mk made result =>
            have hresult : result = .error e := by rw [← h, hmade]
            simp only [hmade, hresult]
    | file hmade h => simp only [hmade, h]

/-! ## One operation -/

/-- A journal that is closed, or that is open with the console and its log file. -/
inductive IsSettled : Journal → Prop
  | closed : IsSettled .closed
  | opened (least : LogLevel) (file : Option Path) :
      IsSettled ⟨.console least :: (file.map LogSink.file).toList, true, file⟩

theorem IsSettled.file_eq_none (h : j.IsSettled) (hopen : j.isOpen = false) : j.file = none := by
  cases h with
  | closed => rfl
  | opened least file => simp at hopen

/-- A settled journal is open if and only if records go somewhere. -/
theorem IsSettled.isOpen_iff (h : j.IsSettled) : j.isOpen = true ↔ j.sinks ≠ [] := by
  cases h with
  | closed => simp [Journal.closed]
  | opened least file => simp

/-- A settled journal has a log file if and only if records go to a file. -/
theorem IsSettled.file_iff (h : j.IsSettled) :
    j.file ≠ none ↔ ∃ path, LogSink.file path ∈ j.sinks := by
  cases h with
  | closed => simp [Journal.closed]
  | opened least file => cases file <;> simp

/-- A settled journal stays settled unless the operation fails. -/
theorem IsSettled.after (hj : j.IsSettled) {op : Operation} (h : j.failureOf op = none) :
    (j.after op).IsSettled := by
  obtain ⟨now, tree, request⟩ := op
  cases request with
  | closing => exact .closed
  | recording r => exact hj
  | opening directory verbose =>
      have hfailure : (j.openIn now directory verbose tree).failure = none := h
      show (j.openIn now directory verbose tree).journal.IsSettled
      cases hopen : j.isOpen with
      | true => rwa [openIn_of_isOpen hopen]
      | false =>
          have hopens := opensTo_openIn hopen now directory verbose tree
          rw [hfailure] at hopens
          generalize (j.openIn now directory verbose tree).journal = next at hopens ⊢
          cases hopens with
          | console =>
              rw [hj.file_eq_none hopen]
              exact .opened _ none
          | withFile d => exact .opened _ (some _)

/-- On a settled journal, the law is kept by what does not fail. -/
theorem IsSettled.keepsLaw (hj : j.IsSettled) {op : Operation} (h : j.failureOf op = none) :
    j.KeepsLaw op := by
  constructor
  case isOpen_iff => exact (hj.after h).isOpen_iff
  case file_iff => exact (hj.after h).file_iff
  case again =>
    obtain ⟨now, tree, request⟩ := op
    rintro directory verbose rfl hopen
    exact congrArg Reply.journal (openIn_of_isOpen hopen now directory verbose tree)
  case atomic => exact fun hfails => absurd h hfails

/-- Whatever the journal was before, a failure breaks the law. -/
theorem KeepsLaw.failureOf_eq_none {op : Operation} (h : j.KeepsLaw op) : j.failureOf op = none := by
  obtain ⟨now, tree, request⟩ := op
  cases request with
  | closing => rfl
  | recording r => rfl
  | opening directory verbose =>
      cases hfailure : j.failureOf ⟨now, tree, .opening directory verbose⟩ with
      | none => rfl
      | some e =>
          obtain ⟨-, -, file, hjournal⟩ := openIn_of_failure hfailure
          have hafter : j.after ⟨now, tree, .opening directory verbose⟩ =
            ⟨[.console (consoleLevel verbose)], false, file⟩ := hjournal
          have hopen := h.isOpen_iff.2 (by simp [hafter])
          simp [hafter] at hopen

/-! ## Any number of operations -/

theorem afterAll_concat (j : Journal) (ops : List Operation) (op : Operation) :
    j.afterAll (ops ++ [op]) = (j.afterAll ops).after op := by
  simp [afterAll]

/-- If none of some operations fails, none of the first of them does. -/
theorem NoneFails.of_append {ops more : List Operation} (h : j.NoneFails (ops ++ more)) :
    j.NoneFails ops := by
  rintro done op rest rfl
  exact h done op (rest ++ more) (by simp)

/-- The induction is on the last operation, since each is judged by what was done before it. -/
theorem NoneFails.isSettled_afterAll {ops : List Operation} (h : j.NoneFails ops)
    (hj : j.IsSettled) : (j.afterAll ops).IsSettled := by
  induction ops using List.reverseRecOn with
  | nil => exact hj
  | append_singleton ops last ih =>
      rw [afterAll_concat]
      exact (ih h.of_append).after (h ops last [] rfl)

/-- From a settled journal on, the law is kept after each operation if and only if none of them fails. -/
theorem IsSettled.lawIsKept_iff (hj : j.IsSettled) (ops : List Operation) :
    j.LawIsKept ops ↔ j.NoneFails ops := by
  constructor
  · exact fun hlaw done op rest hops => (hlaw done op rest hops).failureOf_eq_none
  · rintro h done op rest rfl
    exact (h.of_append.isSettled_afterAll hj).keepsLaw (h done op rest rfl)

/-! ## Requests one after the other -/

theorem noneFails_nil (j : Journal) : j.NoneFails [] := by
  simp [NoneFails]

/-- None fails if the first does not and none of the others does after it. -/
theorem noneFails_cons {op : Operation} {ops : List Operation} :
    j.NoneFails (op :: ops) ↔ j.failureOf op = none ∧ (j.after op).NoneFails ops := by
  constructor
  · intro h
    refine ⟨h [] op ops rfl, ?_⟩
    rintro done other rest rfl
    exact h (op :: done) other rest rfl
  · rintro ⟨hfirst, hothers⟩ done other rest hops
    cases done with
    | nil =>
        obtain ⟨rfl, -⟩ := List.cons.inj hops
        exact hfirst
    | cons first done =>
        obtain ⟨rfl, rfl⟩ := List.cons.inj hops
        exact hothers done other rest rfl

/-- The first to fail is the first operation, or the first to fail of the others after it. -/
theorem firstFails_cons {op : Operation} {ops : List Operation} {e : FileError} :
    j.FirstFails (op :: ops) e ↔
      j.failureOf op = some e ∨ j.failureOf op = none ∧ (j.after op).FirstFails ops e := by
  constructor
  · rintro ⟨done, other, rest, hops, hnone, hfails⟩
    cases done with
    | nil =>
        obtain ⟨rfl, -⟩ := List.cons.inj hops
        exact .inl hfails
    | cons first done =>
        obtain ⟨rfl, rfl⟩ := List.cons.inj hops
        obtain ⟨hfirst, hothers⟩ := noneFails_cons.1 hnone
        exact .inr ⟨hfirst, done, other, rest, rfl, hothers, hfails⟩
  · rintro (hfails | ⟨hfirst, done, other, rest, rfl, hothers, hfails⟩)
    · exact ⟨[], op, ops, rfl, noneFails_nil j, hfails⟩
    · exact ⟨op :: done, other, rest, rfl, noneFails_cons.2 ⟨hfirst, hothers⟩, hfails⟩

/-- Someone who makes requests one after the other gets to the end if none fails, and otherwise stops with
the first failure. -/
theorem handleAll_iff (j : Journal) (tree : FileTree) (requests : List (LogMoment × Request)) :
    ((∃ replies, j.handleAll tree requests = .ok replies) ↔
      j.NoneFails (j.operationsOf tree requests)) ∧
    ∀ e, j.handleAll tree requests = .error e ↔ j.FirstFails (j.operationsOf tree requests) e := by
  induction requests generalizing j tree with
  | nil => simp [handleAll, operationsOf, NoneFails, FirstFails]
  | cons first rest ih =>
      obtain ⟨now, request⟩ := first
      obtain ⟨hok, herror⟩ := ih (j.handle now tree request).journal (j.handle now tree request).tree
      have hfirst : j.failureOf ⟨now, tree, request⟩ = (j.handle now tree request).failure := rfl
      have hafter : j.after ⟨now, tree, request⟩ = (j.handle now tree request).journal := rfl
      rw [operationsOf, noneFails_cons, hfirst, hafter, ← hok]
      simp only [firstFails_cons, hfirst, hafter, ← herror]
      cases hfailure : (j.handle now tree request).failure with
      | some e => simp [handleAll, hfailure]
      | none => simp [handleAll, hfailure, map_eq_ok, map_eq_error]

/-- Over any operations from the closed journal on, the law is kept after each of them if and only if none
of them fails, and someone who handles no failure is stopped by the first of them.  An opening fails if and
only if the journal is not open yet and the log file cannot be had; the console then stays behind and the
journal is not open.  Opening a journal that is open changes nothing, whatever was done before. -/
theorem keeps_law_iff_succeeds (ops : List Operation) :
    (closed.LawIsKept ops ↔ closed.NoneFails ops) ∧
    (∀ now tree directory verbose,
      ((closed.afterAll ops).isOpen = true →
        (closed.afterAll ops).handle now tree (.opening directory verbose) =
          ⟨closed.afterAll ops, tree, [], none⟩) ∧
      ∀ e, ((closed.afterAll ops).handle now tree (.opening directory verbose)).failure = some e ↔
        (closed.afterAll ops).isOpen = false ∧ (∃ d, directory = some d ∧ Refused now tree d e) ∧
          ((closed.afterAll ops).handle now tree (.opening directory verbose)).journal.isOpen = false ∧
          ((closed.afterAll ops).handle now tree (.opening directory verbose)).journal.sinks =
            [.console (consoleLevel verbose)]) ∧
    ∀ tree requests,
      ((∃ replies, closed.handleAll tree requests = .ok replies) ↔
        closed.LawIsKept (closed.operationsOf tree requests)) ∧
      ∀ e, closed.handleAll tree requests = .error e ↔
        closed.FirstFails (closed.operationsOf tree requests) e := by
  refine ⟨IsSettled.closed.lawIsKept_iff ops, ?_, ?_⟩
  · intro now tree directory verbose
    refine ⟨fun hopen => openIn_of_isOpen hopen now directory verbose tree, ?_⟩
    intro e
    constructor
    · intro hfailure
      obtain ⟨hopen, hrefused, file, hjournal⟩ := openIn_of_failure hfailure
      refine ⟨hopen, hrefused, ?_⟩
      simp only [handle, hjournal, true_and]
    · rintro ⟨hopen, hrefused, -⟩
      exact failure_openIn_iff.2 ⟨hopen, hrefused⟩
  · intro tree requests
    obtain ⟨hok, herror⟩ := closed.handleAll_iff tree requests
    exact ⟨hok.trans (IsSettled.closed.lawIsKept_iff _).symm, herror⟩

private def someMoment : LogMoment := ⟨"20240102_030405", "2024-01-02 03:04:05"⟩

private def noFiles : FileTree := ⟨[], []⟩

/-- The console, a record, a second opening that is passed over, and a log file after closing. -/
private def openedTwice : List Operation :=
  [⟨someMoment, noFiles, .opening none true⟩, ⟨someMoment, noFiles, .recording ⟨"", .info, "hello"⟩⟩,
    ⟨someMoment, noFiles, .opening (some ⟨0, ["logs"]⟩) false⟩, ⟨someMoment, noFiles, .closing⟩,
    ⟨someMoment, noFiles, .opening (some ⟨0, ["logs"]⟩) false⟩]

private theorem noneFails_openedTwice : closed.NoneFails openedTwice := by
  simp only [openedTwice, noneFails_cons]
  exact ⟨by decide +kernel, by decide +kernel, by decide +kernel, by decide +kernel,
    by decide +kernel, noneFails_nil _⟩

theorem keeps_law_openedTwice :
    closed.LawIsKept openedTwice ∧
      closed.afterAll openedTwice =
        ⟨[.console .info, .file ⟨0, ["logs", "standardui_codegen_20240102_030405.log"]⟩], true,
          some ⟨0, ["logs", "standardui_codegen_20240102_030405.log"]⟩⟩ :=
  ⟨(keeps_law_iff_succeeds openedTwice).1.2 noneFails_openedTwice, by decide +kernel⟩

/-- A file stands where the directory of the log files should be. -/
private def fileInTheWay : FileTree := ⟨[], [(⟨1, ["logs"]⟩, .file [])]⟩

/-- The first opening fails, and records go to the console of a journal that is not open. -/
theorem failed_opening_leaves_console :
    closed.handleAll fileInTheWay [(someMoment, .opening (some ⟨0, ["logs"]⟩) false)] =
        .error (.alreadyExists ⟨0, ["logs"]⟩) ∧
      closed.after ⟨someMoment, fileInTheWay, .opening (some ⟨0, ["logs"]⟩) false⟩ =
        ⟨[.console .info], false, none⟩ ∧
      ¬closed.LawIsKept [⟨someMoment, fileInTheWay, .opening (some ⟨0, ["logs"]⟩) false⟩] := by
  have hfailure : closed.failureOf ⟨someMoment, fileInTheWay, .opening (some ⟨0, ["logs"]⟩) false⟩ =
      some (.alreadyExists ⟨0, ["logs"]⟩) := by
    decide +kernel
  refine ⟨((closed.handleAll_iff _ _).2 _).2 (firstFails_cons.2 (.inl hfailure)), by decide +kernel, ?_⟩
  intro hlaw
  have hnone := (hlaw [] _ [] rfl).failureOf_eq_none
  rw [afterAll, List.foldl_nil, hfailure] at hnone
  cases hnone

end PlatformClasses.Journal
