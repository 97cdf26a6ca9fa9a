import ScriptEngine.Library.Iteration
import ScriptEngine.Library.Sequences
import ScriptEngine.Proofs.Frame.Confirmation
import ScriptEngine.Proofs.Native.Settling
import ScriptEngine.Proofs.Native.Simple
import ScriptEngine.Proofs.Table.Reading

/-!
# The last value of a call

A row of arguments ends with all the single values of the last one, and with one
more when the last value is Void: then Void itself is an argument.  So a call whose
last argument is the result of a function that returned nothing passes one argument
more than a call whose last argument is the empty tuple, and the functions that count
their arguments tell the two apart.
-/

namespace ScriptEngine

variable {H : HostTypes} {values : List Value}

namespace Value

/-- What a value leaves at the end of a row besides its single values. -/
def vacancy : Value → List Value
  | .void => [.void]
  | _ => []

@[simp] theorem vacancy_eq_nil_iff (v : Value) : v.vacancy = [] ↔ v ≠ .void := by
  cases v <;> simp [vacancy]

theorem spliceLast_singleton (v : Value) : spliceLast [v] = v.toValues ++ v.vacancy := by
  cases v <;> simp [spliceLast, toValues, vacancy]

end Value

theorem flattenArgs_concat (values : List Value) (v : Value) :
    flattenArgs (values ++ [v]) =
      values.map Value.toScalar ++ v.toValues ++ v.vacancy := by
  rw [flattenArgs, Value.spliceLast_concat, Value.spliceLast_singleton, List.append_assoc]

/-- A row that has been spliced is spliced again without a change. -/
theorem flattenArgs_flattenArgs (hvalues : ∀ w ∈ values, w.Flat) :
    flattenArgs (flattenArgs values) = flattenArgs values :=
  Value.spliceLast_of_single (single_flattenArgs hvalues)

/-! ## Functions that count -/

namespace Library

theorem select_hash (values : List Value) (methodCall : Bool) :
    (select ⟨.string "#" :: values, methodCall⟩ : Action H NativeOutcome) =
      one (.number (Float.ofNat values.length)) := by
  simp [select, Arguments.get, Arguments.rest, Value.asString?]

theorem consistent_packed (values : List Value) {i : Int} {t : Table} (ht : t.Consistent) :
    (packed i values t).Consistent := by
  induction values generalizing i t with
  | nil => simpa [packed] using ht
  | cons v rest ih => simpa [packed] using ih (ht.setInt i v.toStorable)

/-- The table that is made of the arguments knows how many there were. -/
theorem settled_pack (a : Arguments) (w : World H) :
    ∃ t w', (pack a : Action H NativeOutcome).settled w =
        (.done (.result (.table t)), w') ∧
      (w'.table t).getName "n" = .number (Float.ofNat a.count) := by
  let t := (packed 1 a.values {}).setName "n" (.number (Float.ofNat a.count))
  refine ⟨⟨w.nextId⟩, w.add (.table t), rfl, ?_⟩
  have hpacked := consistent_packed a.values Table.consistent_empty (i := 1)
  have hname : Key.ofValue? (.string "n") = some (.name "n") := by
    simp [Key.ofValue?, Value.toScalar]
  have htable : (w.add (.table t)).table ⟨w.nextId⟩ = t := by
    simp [World.table]
  have hread := hpacked.getKey_setKey hname (Value.toScalar_eq_self (by simp))
    (Value.toStorable_toStorable (.number (Float.ofNat a.count))) (.name "n")
  rw [htable, Table.getName]
  simpa [t, Table.setName, Value.toStorable, Value.toScalar] using hread

end Library

/-! ## Calls -/

theorem Exec.call_function_run [HostObjects H] {c : Core H} (f : FunctionRef)
    (args : List Value) (flags : FrameFlags) (returnAddress : Nat) (handlers : Handlers)
    (hdepth : c.proc.frames.height < c.world.settings.maxCallDepth) :
    call (.function f) args flags returnAddress handlers c =
      .ok .proceed
        { c with
          proc :=
            { c.proc.pushFrame
                { callee := .function f, base := c.proc.stack.height, returnAddress
                  flags, handlers, pendingArgs := flattenArgs args } with
              ip := (c.world.closure f).entry
              chunk? := some (c.world.closure f).chunk } } := by
  have hcallee : c.world.callee maxCallHops (Value.function f).toScalar
      (flattenArgs args) = .ok (.function f, flattenArgs args) := rfl
  rw [call, run_bind_of_ok (ask_run _ c), hcallee]
  dsimp only
  rw [enter, run_bind_of_ok (askProc_run _ c), run_bind_of_ok (ask_run _ c),
    if_neg (Nat.not_le_of_lt hdepth)]
  rfl

/-- A call with these values and this last one passes the scalars of the former, the single
values of the last one and, behind them, `extra`. -/
structure CallPasses (H : HostTypes) [HostObjects H] (values : List Value) (v : Value)
    (extra : List Value) : Prop where
  row : flattenArgs (values ++ [v]) = values.map Value.toScalar ++ v.toValues ++ extra
  toClosure (c : Core H) (f : FunctionRef) (flags : FrameFlags) (returnAddress : Nat)
    (handlers : Handlers)
    (hdepth : c.proc.frames.height < c.world.settings.maxCallDepth) :
    ∃ c' frame,
      Exec.call (.function f) (values ++ [v]) flags returnAddress handlers c =
        .ok .proceed c' ∧
      c'.proc.frames.top? = some frame ∧
      frame.pendingArgs = values.map Value.toScalar ++ v.toValues ++ extra
  toNative (c : Core H) (f : NativeRef) (flags : FrameFlags) (returnAddress : Nat)
    (handlers : Handlers)
    (hdepth : c.proc.frames.height < c.world.settings.maxCallDepth)
    (hflat : ∀ w ∈ values ++ [v], w.Flat) :
    ∃ c',
      Exec.call (.native f) (values ++ [v]) flags returnAddress handlers c =
        .ok (.invoke f ⟨values.map Value.toScalar ++ v.toValues ++ extra,
          flags.methodCall⟩) c'
  counted (methodCall : Bool) :
    (Arguments.ofValues (values ++ [v]) methodCall).count =
      values.length + v.toValues.length + extra.length
  selected (methodCall : Bool) :
    (Library.select (.ofValues (.string "#" :: values ++ [v]) methodCall) :
        Action H NativeOutcome) =
      Library.one
        (.number (Float.ofNat (values.length + v.toValues.length + extra.length)))
  packed (methodCall : Bool) (w : World H) :
    ∃ t w',
      (Library.pack (.ofValues (values ++ [v]) methodCall) :
          Action H NativeOutcome).settled w = (.done (.result (.table t)), w') ∧
      (w'.table t).getName "n" =
        .number (Float.ofNat (values.length + v.toValues.length + extra.length))

theorem callPasses_vacancy [HostObjects H] (values : List Value) (v : Value) :
    CallPasses H values v v.vacancy := by
  have hrow := flattenArgs_concat values v
  have hlength : (flattenArgs (values ++ [v])).length =
      values.length + v.toValues.length + v.vacancy.length := by
    simp [hrow, Nat.add_assoc]
  constructor
  case row => exact hrow
  case toClosure =>
    intro c f flags returnAddress handlers hdepth
    let frame : Frame :=
      { callee := .function f, base := c.proc.stack.height, returnAddress, flags, handlers
        pendingArgs := flattenArgs (values ++ [v]) }
    refine ⟨_, frame, Exec.call_function_run f _ flags returnAddress handlers hdepth, ?_, hrow⟩
    simp [Processor.pushFrame, Stack.top?, Stack.push, frame]
  case toNative =>
    intro c f flags returnAddress handlers hdepth hflat
    have hargs : Arguments.ofValues (flattenArgs (values ++ [v])) flags.methodCall =
        ⟨values.map Value.toScalar ++ v.toValues ++ v.vacancy, flags.methodCall⟩ := by
      rw [Arguments.ofValues, flattenArgs_flattenArgs hflat, hrow]
    have hcall := Exec.call_native_run f (values ++ [v]) flags returnAddress handlers hdepth
    rw [hargs] at hcall
    exact ⟨_, hcall⟩
  case counted =>
    intro methodCall
    exact hlength
  case selected =>
    intro methodCall
    have hcons : flattenArgs (.string "#" :: values ++ [v]) =
        .string "#" :: flattenArgs (values ++ [v]) := by
      rw [flattenArgs_concat, hrow]
      simp [Value.toScalar]
    rw [Arguments.ofValues, hcons, Library.select_hash, hlength]
  case packed =>
    intro methodCall w
    have hpack := Library.settled_pack (.ofValues (values ++ [v]) methodCall) w
    rwa [Arguments.count, Arguments.ofValues, hlength] at hpack

/-- A call passes exactly the scalars of its values and the single values of the last one,
unless the last one is Void; then Void itself is passed behind them. -/
theorem callPasses_last [HostObjects H] (values : List Value) (v : Value) :
    CallPasses H values v v.vacancy ∧ (CallPasses H values v [] ↔ v ≠ .void) := by
  have hpasses : CallPasses H values v v.vacancy := callPasses_vacancy values v
  refine ⟨hpasses, ?_⟩
  constructor
  · intro h
    have hrow : values.map Value.toScalar ++ v.toValues ++ v.vacancy =
        values.map Value.toScalar ++ v.toValues ++ [] :=
      hpasses.row.symm.trans h.row
    simpa using List.append_cancel_left hrow
  · intro hvoid
    rwa [← v.vacancy_eq_nil_iff.mpr hvoid]

/-- The result of a function that returned nothing is counted, the empty tuple is not. -/
theorem void_counted :
    ¬ CallPasses HostTypes.alone [] .void [] ∧
      flattenArgs [.void] = [.void] ∧
      flattenArgs [.tuple []] = [] ∧
      (Library.select (.ofValues [.string "#", .void] false) :
          Action HostTypes.alone NativeOutcome) = Library.one (.number (Float.ofNat 1)) ∧
      (Library.select (.ofValues [.string "#", .tuple []] false) :
          Action HostTypes.alone NativeOutcome) = Library.one (.number (Float.ofNat 0)) := by
  refine ⟨fun h => absurd h.row ?_, rfl, rfl, ?_, ?_⟩
  · decide
  · exact Library.select_hash [.void] false
  · exact Library.select_hash [] false

end ScriptEngine
