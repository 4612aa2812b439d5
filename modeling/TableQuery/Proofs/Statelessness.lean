import TableQuery.Engine.Session

/-!
# Queries in a session

A session remembers its files and how often they were read, and its engine remembers nothing. After
any history a query is answered as a new engine answers it that has no file but the one that the
query names, with the content that was written last. It changes no file, and it reads once, or not
at all if its text is refused (`run_answers_afresh`).
-/

namespace TableQuery.Engine

open TableQuery.Answer
open TableQuery.Files
open TableQuery.Sql

/-! ## Requests -/

/-- What is asked by a request that asks a query: the query, or why its text is none. -/
def Request.asked? : Request → Option (Except SyntaxError Query)
  | .query text | .execute text => some (Query.parse text)
  | .executeParsed parsed => some (.ok parsed)
  | .read _ | .readLines _ | .write _ _ | .remove _ => none

/-- How often a query is to read: once, and never if its text is refused. -/
def readsOf : Except SyntaxError Query → Nat
  | .ok _ => 1
  | .error _ => 0

def resultOver (read : String → Except FileError String) :
    Except SyntaxError Query → Except Error Output
  | .ok query => (answer query (read query.source)).result
  | .error e => .error (.syntaxError e)

/-- The reply that gives the result: as JSON to a query, else as it is. -/
def Request.replyWith (result : Except Error Output) : Request → Reply
  | .query _ => .json (result.map (Output.written false))
  | _ => .output result

def Request.update (name : String) (content : Option String) : Request → Option String
  | .write other (.text written) => if name = other then some written else content
  | .remove other => if name = other then none else content
  | _ => content

/-- The content of a file after a history, as the requests alone tell it. -/
def contentAfter (files : List (String × String)) (past : List Request) (name : String) :
    Option String :=
  past.foldl (Request.update name) (files.lookup name)

namespace Session

def run : List Request → StateM Session (List Reply)
  | [] => pure []
  | request :: rest => do
    let reply ← step request
    let replies ← run rest
    return reply :: replies

def withFile (name : String) (content : Option String) : Session :=
  ⟨.memory (content.toList.map (name, ·)), 0⟩

/-- The new session that has, after a history, no file but the one that is asked of. -/
def afresh (files : List (String × String)) (past : List Request) :
    Except SyntaxError Query → Session
  | .ok query => withFile query.source (contentAfter files past query.source)
  | .error _ => ⟨.memory [], 0⟩

/-! ## One step -/

/-- A query leaves the store as it is, counts its one reading, and answers from what it reads. -/
theorem execute_eq (text : String) (session : Session) :
    ((execute host text session).1.result, (execute host text session).2) =
      (resultOver session.store.read (Query.parse text),
        { session with reads := session.reads + readsOf (Query.parse text) }) := by
  unfold execute
  cases Query.parse text <;> rfl

/-- All that a request does which asks a query. -/
theorem step_asked {request : Request} {parsed : Except SyntaxError Query}
    (asked : request.asked? = some parsed) (session : Session) :
    step request session =
      (request.replyWith (resultOver session.store.read parsed),
        { session with reads := session.reads + readsOf parsed }) := by
  cases request with
  | query text =>
    cases asked
    obtain ⟨result, after⟩ := Prod.mk.inj (execute_eq text session)
    rw [← result, ← after]
    rfl
  | execute text =>
    cases asked
    obtain ⟨result, after⟩ := Prod.mk.inj (execute_eq text session)
    rw [← result, ← after]
    rfl
  | executeParsed query =>
    cases asked
    rfl
  | read | readLines | write | remove => cases asked

/-! ## Contents -/

/-- The session's files are in memory and have these contents. -/
def Holds (session : Session) (content : String → Option String) : Prop :=
  ∃ files, session.store = .memory files ∧ ∀ name, files.lookup name = content name

/-- Files that are kept by their names are found if their names are kept. -/
theorem lookup_filter (keep : String → Bool) (files : List (String × String)) (name : String) :
    (files.filter fun file => keep file.1).lookup name =
      if keep name then files.lookup name else none := by
  induction files with
  | nil => simp
  | cons file files ih =>
    obtain ⟨own, content⟩ := file
    rw [List.filter_cons, List.lookup_cons]
    by_cases asked : name = own
    · subst asked
      cases kept : keep name <;> simp [kept, ih]
    · have missed : (name == own) = false := beq_eq_false_iff_ne.2 asked
      cases kept : keep own <;> simp [List.lookup_cons, missed, ih]

/-- What a step does to the store is what its request does to each file. -/
theorem step_holds {session : Session} {content : String → Option String}
    (holds : session.Holds content) (request : Request) :
    (step request session).2.Holds fun name => request.update name (content name) := by
  obtain ⟨files, store, same⟩ := holds
  obtain ⟨_, reads⟩ := session
  subst store
  cases request with
  | read | readLines | executeParsed => exact ⟨files, rfl, same⟩
  | query text | execute text =>
    rw [step_asked rfl]
    exact ⟨files, rfl, same⟩
  | write name entry =>
    cases entry with
    | binary | directory => exact ⟨files, rfl, same⟩
    | text written =>
      refine ⟨_, rfl, fun other => ?_⟩
      rw [List.lookup_cons, lookup_filter (· ≠ name), same other]
      by_cases own : other = name
      · simp [Request.update, own]
      · simp [Request.update, own, beq_eq_false_iff_ne.2 own]
  | remove name =>
    refine ⟨_, rfl, fun other => ?_⟩
    rw [lookup_filter (· ≠ name), same other]
    by_cases own : other = name <;> simp [Request.update, own]

/-- After any history the files are as its requests alone tell it. -/
theorem run_holds {session : Session} {content : String → Option String}
    (holds : session.Holds content) (past : List Request) :
    (run past session).2.Holds fun name => past.foldl (Request.update name) (content name) := by
  induction past generalizing session content with
  | nil => exact holds
  | cons request past ih => exact ih (step_holds holds request)

theorem withFile_holds (name : String) (content : Option String) :
    (withFile name content).Holds fun other => if other = name then content else none := by
  refine ⟨_, rfl, fun other => ?_⟩
  cases content with
  | none => simp
  | some text => simp [List.lookup_singleton]

/-- A file with the same content reads the same in both. -/
theorem read_eq_of_holds {session session' : Session} {content content' : String → Option String}
    (holds : session.Holds content) (holds' : session'.Holds content') {name : String}
    (same : content name = content' name) :
    session.store.read name = session'.store.read name := by
  obtain ⟨files, store, found⟩ := holds
  obtain ⟨files', store', found'⟩ := holds'
  have alike : files.lookup name = files'.lookup name := by rw [found, found', same]
  rw [store, store', Store.read, Store.read, alike]

/-! ## A whole session -/

/-- A history goes on from the session that it has left. -/
theorem run_append (past future : List Request) (session : Session) :
    run (past ++ future) session =
      ((run past session).1 ++ (run future (run past session).2).1,
        (run future (run past session).2).2) := by
  induction past generalizing session with
  | nil => rfl
  | cons request past ih =>
    have rest := ih (step request session).2
    change ((step request session).1 :: (run (past ++ future) (step request session).2).1,
      (run (past ++ future) (step request session).2).2) = _
    rw [rest]
    rfl

theorem length_run (past : List Request) (session : Session) :
    (run past session).1.length = past.length := by
  induction past generalizing session with
  | nil => rfl
  | cons request past ih => exact congrArg (· + 1) (ih (step request session).2)

/-- After a history a query finds what it would find in a new session. -/
theorem resultOver_afresh (files : List (String × String)) (reads : Nat) (past : List Request)
    (parsed : Except SyntaxError Query) :
    resultOver (run past ⟨.memory files, reads⟩).2.store.read parsed =
      resultOver (afresh files past parsed).store.read parsed := by
  cases parsed with
  | error e => rfl
  | ok query =>
    have start : Holds ⟨.memory files, reads⟩ fun name => files.lookup name :=
      ⟨files, rfl, fun _ => rfl⟩
    have alone := withFile_holds query.source (contentAfter files past query.source)
    have found : (run past ⟨.memory files, reads⟩).2.store.read query.source =
        (withFile query.source (contentAfter files past query.source)).store.read query.source :=
      read_eq_of_holds (run_holds start past) alone (if_pos rfl).symm
    simp only [resultOver, afresh, found]

/-- Wherever a query stands in a session, it is answered as in a new one that has only its file, as
it is at that time; it leaves the files as they are, and it has read once, or not at all if its text
is refused. -/
theorem run_answers_afresh (files : List (String × String)) (reads : Nat)
    (past future : List Request) (request : Request) (parsed : Except SyntaxError Query)
    (asked : request.asked? = some parsed) :
    (run (past ++ request :: future) ⟨.memory files, reads⟩).1[past.length]? =
        some (step request (afresh files past parsed)).1 ∧
      (run (past ++ [request]) ⟨.memory files, reads⟩).2.store =
        (run past ⟨.memory files, reads⟩).2.store ∧
      (run (past ++ [request]) ⟨.memory files, reads⟩).2.reads =
        (run past ⟨.memory files, reads⟩).2.reads + readsOf parsed := by
  have replies : (run (past ++ request :: future) ⟨.memory files, reads⟩).1 =
      (run past ⟨.memory files, reads⟩).1 ++
        (step request (run past ⟨.memory files, reads⟩).2).1 ::
          (run future (step request (run past ⟨.memory files, reads⟩).2).2).1 := by
    rw [run_append]
    rfl
  have after : (run (past ++ [request]) ⟨.memory files, reads⟩).2 =
      (step request (run past ⟨.memory files, reads⟩).2).2 := by
    rw [run_append]
    rfl
  refine ⟨?_, ?_, ?_⟩
  · rw [replies, List.getElem?_append_right (Nat.le_of_eq (length_run past _)), length_run,
      Nat.sub_self, List.getElem?_cons_zero, step_asked asked, step_asked asked, resultOver_afresh]
  · rw [after, step_asked asked]
  · rw [after, step_asked asked]

/-- Files that come, change and go, a text that is refused, and queries that fail. -/
def busyPast : List Request :=
  [.write "t" (.text "a,b\n1,2"), .write "other" (.text "a\n1"), .query "SELECT a FROM t",
    .readLines "other", .execute "SELECT FROM t", .write "t" (.text "b;a\n3;x\n1"),
    .executeParsed ⟨[.column "z" "z"], "other", none, none⟩, .read "missing", .remove "other"]

def lateText : String := "SELECT a FROM t ORDER BY b DESC"

/-- The file has a row that is too short by now, and the query fails as it does in a new session. -/
theorem busyPast_is_forgotten :
    (Request.query lateText).asked? =
        some (.ok ⟨[.column "a" "a"], "t", none, some ⟨"b", .descending⟩⟩) ∧
      (run (busyPast ++ .query lateText :: [.read "t"]) ⟨.memory [("t", "a")], 5⟩).1[9]? =
        some (step (.query lateText) (withFile "t" (some "b;a\n3;x\n1"))).1 ∧
      (run (busyPast ++ [.query lateText]) ⟨.memory [("t", "a")], 5⟩).2.store =
        (run busyPast ⟨.memory [("t", "a")], 5⟩).2.store ∧
      (run (busyPast ++ [.query lateText]) ⟨.memory [("t", "a")], 5⟩).2.reads =
        (run busyPast ⟨.memory [("t", "a")], 5⟩).2.reads + 1 := by
  have parsed : (Query.parse lateText).toOption =
      some ⟨[.column "a" "a"], "t", none, some ⟨"b", .descending⟩⟩ := by decide +kernel
  have asked : (Request.query lateText).asked? =
      some (.ok ⟨[.column "a" "a"], "t", none, some ⟨"b", .descending⟩⟩) := by
    -- Results of parsing cannot be compared, but the queries in them can.
    cases found : Query.parse lateText with
    | ok query =>
      rw [found] at parsed
      cases parsed
      exact congrArg some found
    | error e =>
      rw [found] at parsed
      cases parsed
  exact ⟨asked, run_answers_afresh [("t", "a")] 5 busyPast [.read "t"] _ _ asked⟩

end Session

end TableQuery.Engine
