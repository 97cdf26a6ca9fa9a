import ScriptEngine.Proofs.Polling.ResultReceivers
import ScriptEngine.Proofs.Tuple.Transience

/-!
# Histories on flat supplies

A history is a machine with all the machines before it, since the engine was new.  If all
that its host supplied on the way is flat, so is the machine, and whatever variable holds a
tuple was bound to it by one of the machines before, as a parameter that takes the rest of the
arguments.  The tuple is still the one that was bound.
-/

namespace ScriptEngine.Machine

variable {H : HostTypes} [Host H] {past : List (Machine H)} {m : Machine H}

/-- Runs of an engine that is supplied with flat values: literals, answers of objects, results
and errors of host functions, arguments of the host.  Between two runs the host may use the
interface. -/
inductive Supplied : List (Machine H) → Machine H → Prop where
  | start (settings : Settings) {host : H.State} (hhost : AnswersFlat host)
      {a : Action H NativeOutcome} (ha : a.Supplies NativeOutcome.Flat) :
      Supplied [] (.start (World.start settings host) a)
  | next {past : List (Machine H)} {m : Machine H} (h : Supplied past m)
      (hhost : m.HostSupplies) : Supplied (m :: past) m.next
  | again {past : List (Machine H)} {m : Machine H} (h : Supplied past m)
      {result : Except RuntimeError Value} (hfinished : m.control = .finished result)
      {w : World H} (hw : m.core.world.Receives w) {a : Action H NativeOutcome}
      (ha : a.Supplies NativeOutcome.Flat) : Supplied past (.start w a)

/-- One of the machines bound the variable to what it holds in the world. -/
def BoundIn (past : List (Machine H)) (w : World H) (c : CellRef) : Prop :=
  ∃ m ∈ past, m.Binds c (w.cell c)

theorem flat_of_start {w : World H} (hw : w.Flat) {a : Action H NativeOutcome}
    (ha : a.Supplies NativeOutcome.Flat) : (Machine.start w a).Flat := by
  have hnone : ∀ activation ∈ ([] : List (Activation H)), activation.Flat := by simp
  exact ⟨⟨hw, Processor.flat_of_empty rfl rfl rfl rfl⟩, hnone, ha⟩

theorem Supplied.flat (h : Supplied past m) : m.Flat := by
  induction h with
  | start settings hhost ha => exact flat_of_start (World.flat_start settings hhost) ha
  | next h hhost ih => exact (ih.next hhost).flat
  | again h hfinished hw ha ih => exact flat_of_start (hw.flat ih.core.world) ha

/-- Every table in these runs came about by operations, whatever scripts and host do with it. -/
theorem Supplied.tablesArise (h : Supplied past m) : m.core.world.TablesArise :=
  h.flat.core.world.tablesArise

/-- Variables hold what they were bound to since. -/
theorem Supplied.bound (h : Supplied past m) (c : CellRef)
    (htuple : (m.core.world.cell c).isTuple = true) : BoundIn past m.core.world c := by
  induction h with
  | start settings hhost ha =>
    change ((World.start settings _).cell c).isTuple = true at htuple
    rw [World.single_cell_start] at htuple
    cases htuple
  | @next past m h hhost ih =>
    rcases (h.flat.next hhost).spares c htuple with hsame | hbinds
    · rw [hsame] at htuple
      obtain ⟨before, hbefore, hbinds⟩ := ih htuple
      exact ⟨before, List.mem_cons_of_mem m hbefore, by rwa [hsame]⟩
    · exact ⟨m, List.mem_cons_self, hbinds⟩
  | @again past m h result hfinished w hw a ha ih =>
    change (w.cell c).isTuple = true at htuple
    change BoundIn past w c
    have hsame := hw.keeps c htuple
    rw [hsame] at htuple
    obtain ⟨before, hbefore, hbinds⟩ := ih htuple
    exact ⟨before, hbefore, by rwa [hsame]⟩

/-- Tuples are flat on every operand stack, in every variable, result, error and transfer, and
there are none among pending arguments, the arguments of host functions, and keys and values of
tables.  A variable that holds one was bound to a parameter that takes the rest of the
arguments. -/
theorem Supplied.transient (h : Supplied past m) :
    m.Flat ∧ ∀ c, (m.core.world.cell c).isTuple = true → BoundIn past m.core.world c :=
  ⟨h.flat, h.bound⟩

/-! ## A function with a variable number of arguments -/

/-- A host without functions supplies nothing during a run. -/
theorem Supplied.after [LibraryOnly H] (h : Supplied past m) (n : Nat) :
    ∃ past', Supplied past' (m.after n) := by
  induction n with
  | zero => exact ⟨past, h⟩
  | succ n ih =>
    obtain ⟨past', h'⟩ := ih
    exact ⟨_, h'.next fun _ _ _ g => (LibraryOnly.none g).elim⟩

/-- A function that returns its arguments. -/
def gathering : Closure where
  chunk :=
    { name := "gather"
      code :=
        #[{ op := .beginFunction, num := 1 },
          { op := .bindArgs, symbols? := some [.slot 0 "..."] },
          { op := .load, symbol? := some (.slot 0 "...") },
          { op := .ret, num := 1 }] }
  entry := 0

/-- The host loads this function and calls it with two values. -/
def gatheringTwo : Machine HostTypes.alone :=
  .start (.start { modules := ⟨false, false, false⟩ } ())
    (.write (fun w => ((w.newCell (.table w.globals)).2.addClosure gathering).2)
      (.enterMain (.function ⟨3⟩) [.number 1, .tuple [.number 2, .number 3]] fun r =>
        (Action.ofResult r).bind Library.one))

theorem answersFlat_alone (host : HostTypes.alone.State) : AnswersFlat host := by
  refine ⟨?_, ?_, ?_⟩
  · intro o
    exact Empty.elim o
  · intro o
    exact Empty.elim o
  · intro o
    exact Empty.elim o

theorem flat_gathering : gathering.chunk.Flat := by
  intro ip i hi v hv
  match ip, hi with
  | 0, hi | 1, hi | 2, hi | 3, hi =>
    cases hi
    cases hv
  | ip + 4, hi => simp [gathering] at hi

theorem supplied_gatheringTwo : Supplied [] gatheringTwo := by
  refine .start _ (answersFlat_alone ()) ⟨fun w => ?_, ?_, fun r hr => ?_⟩
  · have henv : (Value.table w.globals).Single := rfl
    exact .load w henv flat_gathering
  · simp [Value.Flat, Value.Single, Value.isTuple]
  · exact Action.supplies_bind (Action.supplies_ofResult hr) fun v => Library.supplies_one

/-- The parameter gets all three values as one tuple, and keeps it. -/
theorem transient_gatheringTwo :
    ∃ past, Supplied past (gatheringTwo.after 6) ∧
      (gatheringTwo.after 6).core.world.cell ⟨1⟩ = .tuple [.number 1, .number 2, .number 3] ∧
      (gatheringTwo.after 6).Flat ∧
      BoundIn past (gatheringTwo.after 6).core.world ⟨1⟩ := by
  obtain ⟨past, h⟩ := supplied_gatheringTwo.after 6
  obtain ⟨hflat, hbound⟩ := h.transient
  have hcell : (gatheringTwo.after 6).core.world.cell ⟨1⟩ =
      .tuple [.number 1, .number 2, .number 3] := by decide +kernel
  exact ⟨past, h, hcell, hflat, hbound ⟨1⟩ (by rw [hcell]; rfl)⟩

end ScriptEngine.Machine
