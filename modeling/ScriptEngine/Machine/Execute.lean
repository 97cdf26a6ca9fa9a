import ScriptEngine.Machine.Call

/-!
# Instructions

What each operation does to the operands, the variables and the frames of a processor.
-/

namespace ScriptEngine.Exec

variable {H : HostTypes} [HostObjects H]

/-! ## Operands of the instruction -/

def valueOperand (i : Instruction) : Exec H Value :=
  match i.value? with
  | some v => pure v
  | none => internal (i.op.mnemonic ++ " without a value operand")

def symbolOperand (i : Instruction) : Exec H Symbol :=
  match i.symbol? with
  | some s => pure s
  | none => internal (i.op.mnemonic ++ " without a symbol operand")

/-! ## Variables -/

def outOfRange (s : Symbol) : Exec H CellRef := internal (s.display ++ " out of range")

/-- The variable behind a symbol of the frame that runs. -/
def symbolCell (s : Symbol) : Exec H CellRef := do
  let frame ← topFrame
  match s with
  | .slot index _ =>
    match frame.locals[index]? with
    | some c => pure c
    | none => outOfRange s
  | .captured index _ =>
    match frame.callee with
    | .function f =>
      match (← ask (·.closure f)).upvalues[index]? with
      | some c => pure c
      | none => outOfRange s
    | .native _ => outOfRange s
  | .global _ _ => internal (s.display ++ " cannot be used as a variable cell")

/-- The value of a variable that is no field. -/
def readSymbol (s : Symbol) : Exec H Value := do
  let c ← symbolCell s
  ask (·.cell c)

def load (s : Symbol) : Exec H Outcome := do
  match s with
  | .global name env =>
    let object ← readSymbol env
    let resolved ← ofResult (← ask (·.resolveIndex object (.string name)))
    pushResolved resolved
  | _ =>
    push (← readSymbol s)
    pure .proceed

/-- Assigns through metamethods. -/
def setIndex (object key value : Value) : Exec H Outcome := do
  match ← ofResult (← ask (·.resolveSetIndex object key value)) with
  | .call pending => callPending pending
  | assignment =>
    modifyWorld (·.assign assignment)
    pure .proceed

def store (s : Symbol) (value : Value) : Exec H Outcome := do
  match s with
  | .global name env =>
    let object ← readSymbol env
    setIndex object (.string name) value
  | _ =>
    let c ← symbolCell s
    modifyWorld (·.setCell c value)
    pure .proceed

/-- Item `num2` of the operand at offset `num`, which assignments take. -/
def assigned (i : Instruction) : Exec H Value := do
  pure ((← peek i.num).tupleItem i.num2)

/-- Puts fresh variables into the slots from `first` on, `n` of them. -/
def freshLocals : Nat → Nat → Array CellRef → Exec H (Array CellRef)
  | _, 0, locals => pure locals
  | first, n + 1, locals => do
    let c ← changeWorld (·.newCell .nil)
    freshLocals (first + 1) n (locals.setIfInBounds first c)

def clean (i : Instruction) : Exec H Unit := do
  let frame ← topFrame
  let last ← addOffsets i.num i.num2
  let locals ← freshLocals i.num (min last frame.locals.size - i.num) frame.locals
  setTopFrame { frame with locals }

/-! ## Functions -/

/-- From this number of locals on there is no memory to hold them. -/
def localLimit : Nat := Nat.pow 2 60

def beginFunction (i : Instruction) : Exec H Unit := do
  let frame ← topFrame
  if localLimit ≤ i.num then throw (.fault .tooManyLocals)
  let locals ← changeWorld (·.newCells i.num)
  setTopFrame { frame with locals }

/-- The variables that a function captures. -/
def captureAll : List Symbol → Exec H (List CellRef)
  | [] => pure []
  | s :: rest => do
    let c ← symbolCell s
    let cs ← captureAll rest
    pure (c :: cs)

def makeClosure (chunk : Chunk) (i : Instruction) : Exec H Unit := do
  let upvalues ← captureAll i.symbols
  let f ← changeWorld (·.addClosure
    { chunk, entry := i.num, upvalues := upvalues.toArray
      upvalueNames := i.symbols.map Symbol.name, name? := i.name? })
  push (.function f)

/-- The value a parameter gets: the argument at its position, or all from there on. -/
def argumentFor (param : Symbol) (position : Nat) (args : List Value) : Value :=
  if param.isVarargs then .tupled (args.drop position)
  else (args[position]?.getD .nil).toStorable

/-- Binds parameters from a position on. -/
def bindParams (locals : Array CellRef) (args : List Value) : Nat → List Symbol → Exec H Unit
  | _, [] => pure ()
  | position, param :: rest =>
    match param with
    | .slot index _ =>
      match locals[index]? with
      | some c => do
        modifyWorld (·.setCell c (argumentFor param position args))
        bindParams locals args (position + 1) rest
      | none => internal (param.display ++ " out of range")
    | _ => internal ("parameter " ++ param.display ++ " is not a local")

def bindArgs (i : Instruction) : Exec H Unit := do
  let frame ← topFrame
  setTopFrame { frame with pendingArgs := [] }
  bindParams frame.locals frame.pendingArgs 0 i.symbols

/-- A call whose result is returned at once takes the place of the frame that makes it. -/
def callOp (i : Instruction) (methodCall : Bool) : Exec H Outcome := do
  let args ← popMany i.num
  let function ← pop
  if ← askProc canTailCall then
    match ← popFrame? with
    | none => internal "tail call without a frame"
    | some caller =>
      modifyProc fun p => { p with stack := p.stack.truncate caller.base }
      call function args
        { methodCall, tailCall := true, entryPoint := caller.flags.entryPoint }
        caller.returnAddress {}
  else
    let ip ← askProc (·.ip)
    call function args { methodCall } ip {}

def ret (i : Instruction) : Exec H Outcome := do
  let v ← if i.num = 1 then pop else pure .void
  match ← popFrame? with
  | none => internal "return without a frame"
  | some frame =>
    modifyProc fun p => { p with stack := p.stack.truncate frame.base }
    finish frame v

/-! ## Tables -/

/-- The table that is being built on top of the operands. -/
def tableOperand : Exec H TableRef := do
  match ← peek 0 with
  | .table t => pure t
  | _ => internal "table constructor target is not a table"

def initField : Exec H Unit := do
  let value ← pop
  let key := (← pop).toScalar
  let t ← tableOperand
  match Key.ofValue? key with
  | some k => modifyWorld (·.modifyTable t fun t => t.setKey k key value.toStorable)
  | none => throw (.script (.badKey key))

/-- Fills positions from `i` on. -/
def fillItems (t : TableRef) : Int → List Value → Exec H Unit
  | _, [] => pure ()
  | i, v :: rest =>
    if i < Int.pow 2 63 then do
      modifyWorld (·.modifyTable t fun t => t.setInt i v.toStorable)
      fillItems t (i + 1) rest
    else throw (.fault .indexOverflow)

def initItem (i : Instruction) : Exec H Unit := do
  let value ← pop
  let t ← tableOperand
  match value with
  | .tuple items =>
    fillItems t (Table.signedWord i.num) (if i.num2 = 1 then items else [value.toStorable])
  | _ => fillItems t (Table.signedWord i.num) [value.toStorable]

def getIndex (object key : Value) : Exec H Outcome := do
  let resolved ← ofResult (← ask (·.resolveIndex object key))
  pushResolved resolved

def getMulti : Exec H Unit := do
  let keys ← pop
  let object := (← pop).toScalar
  match object with
  | .userData u => push (← ofResult (← ask (·.userIndex u keys)))
  | _ => throw (.script (.multiIndex object))

def setMulti (i : Instruction) : Exec H Unit := do
  let keys ← pop
  let object := (← pop).toScalar
  let value ← assigned i
  match object with
  | .userData u =>
    let o ← ofResult (← ask (·.userAssign u keys value))
    modifyWorld (·.setUserObject u o)
  | _ => throw (.script (.multiIndex object))

/-! ## Control flow -/

/-- Variable, limit and step of a numeric loop. -/
def forState : Exec H (Float × Float × Float) := do
  let number (offset : Nat) : Exec H Float := do
    match ← peek offset with
    | .number n => pure n
    | _ => internal "numeric for state is not numeric"
  let var ← number 2
  let limit ← number 1
  let step ← number 0
  pure (var, limit, step)

def forCheck (i : Instruction) : Exec H Unit := do
  let (var, limit, step) ← forState
  if (if 0.0 < step then limit < var else var < limit) then jumpTo i.num

def forStep : Exec H Unit := do
  let (var, _, step) ← forState
  modifyProc fun p => { p with stack := p.stack.set 2 (.number (var + step)) }

/-- What the operand of a numeric loop is called. -/
def forOperandName : Nat → String
  | 0 => "initial value"
  | 1 => "limit"
  | 2 => "step"
  | _ => "value"

def toNumber (i : Instruction) : Exec H Unit := do
  match (← pop).toNumber? with
  | some n => push (.number n)
  | none =>
    throw (.script
      { kind := .arithmetic
        message := "'for' " ++ forOperandName i.num ++ " must be a number" })

def iterPrepare : Exec H Unit := do
  let values := (← pop).toValues
  let part (k : Nat) : Value := (values[k]?.getD .nil).toStorable
  pushAll [part 0, part 1, part 2]

def iterUpdate : Exec H Unit := do
  let results ← pop
  let _ ← pop
  push (results.tupleItem 0)

/-! ## Dispatch -/

def swap (i : Instruction) : Exec H Unit := do
  let _ ← addOffsets i.num 1
  let _ ← addOffsets i.num2 1
  match (← askProc (·.stack)).swap? i.num i.num2 with
  | some stack => setStack stack
  | none => underflow

/-- An operator on two operands. -/
def binary (f : World H → Value → Value → Except RuntimeError Resolved) : Exec H Outcome := do
  let (a, b) ← popPair
  let resolved ← ofResult (← ask fun w => f w a b)
  pushResolved resolved

/-- An operation that goes on with the next instruction. -/
def andProceed (x : Exec H Unit) : Exec H Outcome := do
  x
  pure .proceed

/-- Pops and jumps if the condition holds of what was popped. -/
def jumpWhen (i : Instruction) (condition : Value → Bool) : Exec H Unit := do
  if condition (← pop) then jumpTo i.num

/-- Jumps and keeps the top if its truth value is the given one, else pops. -/
def jumpOrPop (i : Instruction) (truth : Bool) : Exec H Unit := do
  if (← peek 0).toBool == truth then jumpTo i.num
  else
    let _ ← pop
    pure ()

/-- Executes an instruction of the chunk. -/
def execute (chunk : Chunk) (i : Instruction) : Exec H Outcome :=
  match i.op with
  | .nop => pure .proceed
  | .pop => andProceed do
    let _ ← popMany i.num
    pure ()
  | .copy => andProceed do push (← peek i.num)
  | .swap => andProceed (swap i)
  | .literal => andProceed do push (← valueOperand i)
  | .makeTuple => andProceed do push (.tupled (← popMany i.num))
  | .toScalar => andProceed do push (← pop).toScalar
  | .load => do load (← symbolOperand i)
  | .store => do
    let v ← assigned i
    store (← symbolOperand i) v
  | .clean => andProceed (clean i)
  | .closure => andProceed (makeClosure chunk i)
  | .beginFunction => andProceed (beginFunction i)
  | .bindArgs => andProceed (bindArgs i)
  | .call => callOp i false
  | .methodCall => callOp i true
  | .ret => ret i
  | .newTable => andProceed do push (.table (← changeWorld (·.newTable)))
  | .initField => andProceed initField
  | .initItem => andProceed (initItem i)
  | .getIndex => do
    let key ← pop
    let object ← pop
    getIndex object key.toScalar
  | .getField => do
    let object ← pop
    getIndex object (← valueOperand i)
  | .getMulti => andProceed getMulti
  | .setIndex => do
    let key ← pop
    let object ← pop
    setIndex object key.toScalar (← assigned i)
  | .setField => do
    let object ← pop
    let v ← assigned i
    setIndex object (← valueOperand i) v
  | .setMulti => andProceed (setMulti i)
  | .jump => andProceed (jumpTo i.num)
  | .jumpIfFalse => andProceed (jumpWhen i fun v => !v.toBool)
  | .jumpIfNil => andProceed (jumpWhen i fun v => v.toScalar.isNil)
  | .jumpIfTrueOrPop => andProceed (jumpOrPop i true)
  | .jumpIfFalseOrPop => andProceed (jumpOrPop i false)
  | .forCheck => andProceed (forCheck i)
  | .forStep => andProceed forStep
  | .toNumber => andProceed (toNumber i)
  | .toBoolean => andProceed do push (.boolean (← pop).toBool)
  | .iterPrepare => andProceed iterPrepare
  | .iterUpdate => andProceed iterUpdate
  | .concat => binary World.resolveConcat
  | .add => binary (·.resolveArith .add)
  | .sub => binary (·.resolveArith .sub)
  | .mul => binary (·.resolveArith .mul)
  | .div => binary (·.resolveArith .div)
  | .mod => binary (·.resolveArith .mod)
  | .pow => binary (·.resolveArith .pow)
  | .neg => do
    let a ← pop
    let resolved ← ofResult (← ask (·.resolveNegate a))
    pushResolved resolved
  | .not => andProceed do push (.boolean !(← pop).toBool)
  | .length => do
    let a ← pop
    modifyWorld (·.noteLength a)
    let resolved ← ofResult (← ask (·.resolveLength a))
    pushResolved resolved
  | .equal => binary fun w a b => .ok (w.resolveEqual a b)
  | .less => binary World.resolveLess
  | .lessEqual => binary World.resolveLessEqual
  | .invalid => internal "invalid opcode executed"

/-- Fetches the instruction to come and executes it. -/
def step : Exec H Outcome := do
  match ← askProc (·.chunk?) with
  | none => internal "no bytecode loaded"
  | some chunk =>
    let ip ← askProc (·.ip)
    match chunk.code[ip]? with
    | none => internal ("instruction pointer " ++ toString ip ++ " out of range")
    | some i =>
      jumpTo (ip + 1)
      execute chunk i

end ScriptEngine.Exec
