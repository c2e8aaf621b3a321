import CapnpEs.Library.Outcome
import CapnpEs.Rpc.Handlers

/-! What an application does with a connection, and two connections joined by a transport. -/

namespace CapnpEs.Rpc

open SlotTable

def bootstrap : ConnM Unit := do
  let q ← newQuestion none
  let conn ← get
  sendMessage (.bootstrap (conn.questionId q))
  alterQuestion q fun question => { question with started := true }

def initMain (client : Nat) : ConnM Unit := do
  modify fun conn => { conn with main := some client }
  let _ ← addExport client

/-- What an answer has settled to, if it has; `outcome` is what code outside the connection settles it to. -/
def Conn.outcomeOf (conn : Conn) (outcome : Except (Option String) Struct) :
    Answer → Option (Except (Option String) Struct)
  | .fulfiller => some outcome
  | .error reason => some (.error (some reason))
  | .question q =>
      if (conn.question q).state = .inProgress then
        none
      else
        match (conn.question q).err, (conn.question q).obj with
        | some reason, _ => some (.error (some reason))
        | none, some obj => some (.ok obj)
        | none, none => none

def finishAnswer (a : Nat) : Except (Option String) Struct → ConnM Unit
  | .ok obj => AnswerEntry.fulfill a obj
  | .error reason => do
    let conn ← get
    AnswerEntry.reject conn.stack a reason

/-- What `joinAnswer` left to do when its answer settles. -/
def settleAnswer (a : Nat) (outcome : Except (Option String) Struct) : ConnM Unit := do
  let conn ← get
  match (conn.answer a).joined.bind (conn.outcomeOf outcome) with
  | none => return ()
  | some outcome => do
    alterAnswer a fun entry => { entry with joined := none }
    let _ ← attempt (finishAnswer a outcome)

def settleForeign (q : Nat) : Except String Struct → ConnM Unit
  | .ok obj => Question.fulfill q obj
  | .error reason => Question.reject q reason

/-- What happens on one side other than the arrival of a message: steps of the application, and the
continuations that wait for a question or an answer to settle. -/
inductive Action
  | newServer (methods : List Method)
  | newOtherClient
  | newPipeline (question : Nat) (transform : Transform)
  | newFixedPipeline (answer : Except String Struct) (transform : Transform)
  | newCapTable (table : List (Option Nat))
  | newForeignQuestion
  | settleForeign (question : Nat) (outcome : Except String Struct)
  | bootstrap
  | initMain (client : Nat)
  | call (client : Nat) (call : Call)
  | close (client : Nat)
  | cancel (question : Nat) (reason : String)
  | settle (answer : Nat) (outcome : Except (Option String) Struct)
  | resume (promise : Continuation)
  | shutdown (reason : String)

/-- A client the application can hold: the table keeps the reference of an export to itself, and an import or a
promise export is only seen through a reference. -/
def Conn.handsOut (conn : Conn) (client : Nat) : Bool :=
  decide (client < conn.objects) &&
    (conn.exports.all fun slot => slot.all fun e => e.client ≠ client) &&
    match conn.client client with
    | .importClient _ => false
    | .promiseExport _ => false
    | _ => true

/-- What an action needs: the clients are ones the application can hold, a question has been returned to it,
a continuation is waiting and its question settled. -/
def Conn.allows (conn : Conn) : Action → Bool
  | .newPipeline q _ => decide (q < conn.objects) && (!(conn.question q).own || (conn.question q).started)
  | .newCapTable table => table.all fun slot => slot.all conn.handsOut
  | .settleForeign q _ => !(conn.question q).own
  | .initMain client => conn.handsOut client
  | .call client _ => conn.handsOut client
  | .close client => conn.handsOut client
  | .cancel q _ => (conn.question q).own && (conn.question q).started
  | .resume promise =>
      decide (promise ∈ conn.continuations) && decide ((conn.question promise.question).state ≠ .inProgress)
  | _ => true

def newForeignQuestion : ConnM Unit :=
  modify fun conn => (conn.alterQuestion conn.objects fun _ => { own := false, id := 0 }).allocated

def resume (promise : Continuation) : ConnM Unit := do
  modify fun conn => { conn with continuations := conn.continuations.erase promise }
  resolveFromQuestion promise

def perform : Action → ConnM Unit
  | .newServer methods => do let _ ← newClient (.server methods)
  | .newOtherClient => do let _ ← newClient .other
  | .newPipeline q transform => do let _ ← newClient (.pipeline q transform)
  | .newFixedPipeline answer transform => do let _ ← newClient (.fixedPipeline answer transform)
  | .newCapTable table => do let _ ← newMessage table
  | .newForeignQuestion => newForeignQuestion
  | .settleForeign q outcome => settleForeign q outcome
  | .bootstrap => bootstrap
  | .initMain client => initMain client
  | .call client call => do
    let conn ← get
    let _ ← callClient conn.stack client call
  | .close client => close client
  | .cancel q reason => do let _ ← Question.cancel q reason
  | .settle a outcome => settleAnswer a outcome
  | .resume promise => resume promise
  | .shutdown reason => shutdown reason

def Conn.run (conn : Conn) (program : ConnM Unit) : Conn :=
  match program { conn with sent := [], trace := [] } with
  | .ok _ after => after
  | .error _ after => after

/-- One step of a connection, with whatever messages its peer may send. -/
inductive Input
  | act (action : Action)
  | receive (message : RpcMessage)

def Conn.step (conn : Conn) : Input → Option Conn
  | .act action => if conn.allows action then some (conn.run (perform action)) else none
  | .receive message => if conn.receiving then some (conn.run (work message)) else none

inductive Side
  | alice
  | bob
  deriving DecidableEq, Repr

def Side.peer : Side → Side
  | .alice => .bob
  | .bob => .alice

/-- Two connections and, for each side, the messages it has sent that have not arrived. -/
structure System where
  conn : Side → Conn
  channel : Side → List RpcMessage

/-- `none` is the arrival of the first message on its way. -/
abbrev Move := Side × Option Action

def System.next (sys : System) (side : Side) (input : Input) : Option System :=
  ((sys.conn side).step input).map fun after => {
    conn := Function.update sys.conn side after
    channel := Function.update sys.channel side (sys.channel side ++ after.sent)
  }

def System.step (sys : System) : Move → Option System
  | (side, some action) => sys.next side (.act action)
  | (side, none) =>
      match sys.channel side.peer with
      | [] => none
      | message :: rest =>
          System.next { sys with channel := Function.update sys.channel side.peer rest } side (.receive message)

/-- Two fresh connections; what is registered and how deep calls may nest is theirs. -/
structure System.Initial (sys : System) : Prop where
  fresh : ∀ side, ∃ registry stack, sys.conn side = { registry := registry, stack := stack }
  quiet : ∀ side, sys.channel side = []

end CapnpEs.Rpc
