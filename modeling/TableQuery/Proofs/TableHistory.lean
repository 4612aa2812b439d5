import TableQuery.Proofs.TableShape

/-!
# A table after any calls

A table grows by calls that append a row, and any of them may be refused. A call is taken exactly
when its cells are as many as the columns, and one that is refused leaves the table alone
(`appendRow_run`). After any calls the rows are therefore those of the calls that were taken, and
looking into a row by name finds what was put there (`callAll_holds`).
-/

namespace TableQuery

structure Table.Call where
  /-- The line that the row comes from. -/
  line : Nat
  cells : List String
  deriving DecidableEq, Repr

namespace Table

def Call.fits (header : List String) (call : Call) : Bool :=
  call.cells.length = header.length

def Call.answer (header : List String) (call : Call) : Except TableError Unit :=
  if call.fits header then .ok () else .error (.width call.line header.length call.cells.length)

def Call.make (call : Call) : StateM Table (Except TableError Unit) :=
  (appendRow call.line call.cells).run

/-- Makes the calls in their order, also behind one that is refused, and collects what they are
told. -/
def callAll (calls : List Call) : StateM Table (List (Except TableError Unit)) :=
  calls.mapM Call.make

/-- The table with the rows of those calls that fit at its end. -/
def grownBy (table : Table) (calls : List Call) : Table :=
  { table with rows := table.rows ++ (calls.filter (Call.fits table.header)).map Call.cells }

/-! ## One call and many -/

/-- One call: the row is appended, or nothing is. -/
theorem appendRow_run (table : Table) (call : Call) :
    call.make.run table = (call.answer table.header, table.grownBy [call]) := by
  -- The state is still the table when the width has been checked, and it is not set before.
  have checked : call.make.run table =
      match checkWidth table.header call.line call.cells with
      | .ok cells => (.ok (), { table with rows := table.rows ++ [cells] })
      | .error e => (.error e, table) := by
    change ((liftM (checkWidth table.header call.line call.cells) >>= fun cells =>
      set { table with rows := table.rows ++ [cells] } :
        ExceptT TableError (StateM Table) Unit)).run.run table = _
    cases checkWidth table.header call.line call.cells <;> rfl
  rw [checked]
  unfold checkWidth Call.answer grownBy
  by_cases fits : call.cells.length = table.header.length
  · simp [Call.fits, fits]
  · simp [Call.fits, fits]

theorem grownBy_cons (table : Table) (call : Call) (calls : List Call) :
    (table.grownBy [call]).grownBy calls = table.grownBy (call :: calls) := by
  simp only [grownBy, List.append_assoc, ← List.map_append, ← List.filter_append,
    List.singleton_append]

/-- Any number of calls: each is answered by its own width, and the fitting rows are there. -/
theorem callAll_run (table : Table) (calls : List Call) :
    (callAll calls).run table = (calls.map (Call.answer table.header), table.grownBy calls) := by
  induction calls generalizing table with
  | nil =>
    rw [grownBy, List.filter_nil, List.map_nil, List.map_nil, List.append_nil]
    rfl
  | cons call calls ih =>
    have behind : (callAll (call :: calls)).run table =
        let (answers, after) := Id.run ((callAll calls).run (table.grownBy [call]))
        (call.answer table.header :: answers, after) := by
      rw [callAll, List.mapM_cons, StateT.run_bind, appendRow_run]
      rfl
    rw [behind, ih, grownBy_cons]
    rfl

end Table

/-! ## Rows looked into -/

/-- Looking into the row finds the cells under the names, and nothing under any other name. -/
structure Row.Shows (row : Row) (header cells : List String) : Prop where
  full : cells.length = header.length
  /-- Where a name is found there is a cell. -/
  inside : ∀ column place, row.header.idxOf? column = some place → place < row.cells.length
  get_named : ∀ place (named : place < header.length) (held : place < cells.length),
    row.get? header[place] = some cells[place]
  get_other : ∀ column, column ∉ header → row.get? column = none
  names : row.fields.map Prod.fst = header
  values : row.fields.map Prod.snd = cells

/-- A row under distinct names shows each cell under its own. -/
theorem shows_of_full {header cells : List String} (distinct : header.Nodup)
    (full : cells.length = header.length) : (Row.mk header cells).Shows header cells where
  full := full
  inside column place found := by
    obtain ⟨named, _⟩ := List.idxOf?_eq_some_iff.1 found
    exact Nat.lt_of_lt_of_eq named full.symm
  get_named place named held := by
    rw [get?_getElem distinct named, List.getElem?_eq_getElem held]
  get_other column other := by
    have absent : header.idxOf? column = none := List.idxOf?_eq_none_iff.2 other
    rw [Row.get?, absent]
    rfl
  names := map_fst_fields full
  values := map_snd_fields full

namespace Table

/-- A header makes a table if its names are not empty and not repeated. -/
theorem ofHeader_eq_ok_iff {header : List String} {table : Table} :
    ofHeader header = .ok table ↔ table = ⟨header, []⟩ ∧ "" ∉ header ∧ header.Nodup := by
  unfold ofHeader
  constructor
  · intro made
    obtain ⟨_, named, done⟩ := ok_of_bind_ok made
    obtain ⟨nonempty, distinct, _⟩ := checkNames_eq_ok_iff.1 named
    exact ⟨(Except.ok.inj done).symm, nonempty, distinct⟩
  · rintro ⟨rfl, nonempty, distinct⟩
    have named := (@checkNames_eq_ok_iff [] _).2 ⟨nonempty, distinct, by simp⟩
    rw [named]
    rfl

/-- The table has the header, and the cells of the calls that fit, in their order. -/
structure Holds (table : Table) (header : List String) (calls : List Call) : Prop where
  names : table.header = header
  rows : table.rows = (calls.filter (Call.fits header)).map Call.cells
  shows : List.Forall₂ (fun cells row => Row.Shows row header cells) table.rows table.views
  /-- A call that is refused leaves the table as it is. -/
  refused : ∀ (call : Call) e after, call.make.run table = (.error e, after) → after = table

/-- A refusal leaves the table as it was. -/
theorem refused_run {table after : Table} {call : Call} {e : TableError}
    (refused : call.make.run table = (.error e, after)) : after = table := by
  rw [appendRow_run] at refused
  obtain ⟨told, left⟩ := Prod.mk.inj refused
  unfold Call.answer at told
  split at told
  · cases told
  · next unfit =>
    rw [← left, grownBy, List.filter_cons_of_neg unfit]
    exact congrArg (Table.mk table.header) (List.append_nil table.rows)

/-- The table that was built holds what was given to it. -/
theorem holds_grownBy {header : List String} (distinct : header.Nodup) (calls : List Call) :
    ((⟨header, []⟩ : Table).grownBy calls).Holds header calls where
  names := rfl
  rows := List.nil_append _
  shows := by
    refine List.forall₂_map_right_iff.2 (List.forall₂_same.2 fun cells stored => ?_)
    have taken : cells ∈ (calls.filter (Call.fits header)).map Call.cells := stored
    obtain ⟨call, fitting, rfl⟩ := List.mem_map.1 taken
    exact shows_of_full distinct (of_decide_eq_true (List.mem_filter.1 fitting).2)
  refused _ _ _ := refused_run

/-- A header is accepted exactly if its names are not empty and differ. Whatever calls are then
made, each is taken exactly if it fits, and the table holds those that were. -/
theorem callAll_holds (header : List String) :
    ((∃ table, ofHeader header = .ok table) ↔ "" ∉ header ∧ header.Nodup) ∧
    ∀ table, ofHeader header = .ok table → ∀ calls, ∃ answers after,
      (callAll calls).run table = (answers, after) ∧
      List.Forall₂ (fun call answer =>
        (call.cells.length = header.length → answer = .ok ()) ∧
        (call.cells.length ≠ header.length →
          answer = .error (.width call.line header.length call.cells.length))) calls answers ∧
      after.Holds header calls := by
  constructor
  · constructor
    · rintro ⟨table, made⟩
      exact (ofHeader_eq_ok_iff.1 made).2
    · intro good
      exact ⟨_, ofHeader_eq_ok_iff.2 ⟨rfl, good⟩⟩
  · intro table made calls
    obtain ⟨rfl, _, distinct⟩ := ofHeader_eq_ok_iff.1 made
    refine ⟨_, _, callAll_run _ calls, ?_, holds_grownBy distinct calls⟩
    refine List.forall₂_map_right_iff.2 (List.forall₂_same.2 fun call _ => ⟨fun fits => ?_, ?_⟩)
    · exact if_pos (decide_eq_true fits)
    · intro unfit
      exact if_neg (by simpa [Call.fits] using unfit)

/-- Calls that bring too few cells and too many, between calls that fit. -/
def unevenCalls : List Call :=
  [⟨2, ["1", ""]⟩, ⟨3, ["only"]⟩, ⟨4, ["a", "b", "c"]⟩, ⟨5, ["name", "id"]⟩]

theorem unevenCalls_held :
    ofHeader ["id", "name"] = .ok ⟨["id", "name"], []⟩ ∧
    ∃ answers after, (callAll unevenCalls).run ⟨["id", "name"], []⟩ = (answers, after) ∧
      List.Forall₂ (fun call answer =>
        (call.cells.length = 2 → answer = .ok ()) ∧
        (call.cells.length ≠ 2 → answer = .error (.width call.line 2 call.cells.length)))
        unevenCalls answers ∧
      after.Holds ["id", "name"] unevenCalls := by
  have made : ofHeader ["id", "name"] = .ok ⟨["id", "name"], []⟩ := by decide
  exact ⟨made, (callAll_holds ["id", "name"]).2 _ made unevenCalls⟩

end Table

end TableQuery
