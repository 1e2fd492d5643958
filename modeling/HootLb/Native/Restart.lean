import Mathlib.Data.List.Sort
import HootLb.Native.Balancer

/-!
# Zero-downtime restart

`internal/restart` and its use in `cmd/lb`: the table of listener descriptors that
`Trigger` passes to a child through the environment, the child's reading of it, and
the process around `Trigger` as a machine whose steps are the parts of its goroutines
between two points where others can run.

A socket is a number; a duplicated file refers to the same socket. `exec` gives
`ExtraFiles[i]` to the child as descriptor `3 + i` and hands the environment over
unchanged.
-/

namespace HootLb.Restart

open Config Balancer

/-! ## Numbers in decimal -/

/-- `strconv.Itoa` of an index. -/
def itoa (n : Nat) : String := n.repr

/-- Whether a number is negative, and the text behind its sign. -/
def cutSign : List Char → Bool × List Char
  | '-' :: rest => (true, rest)
  | '+' :: rest => (false, rest)
  | cs => (false, cs)

/-- `strconv.Atoi`: an optional sign and digits, in the range of a 64-bit `int`. -/
def atoi (s : String) : Option Int :=
  let (negative, digits) := cutSign s.toList
  if digits.isEmpty || !digits.all Char.isDigit then none
  else
    let magnitude : Int := Nat.ofDigitChars 10 digits 0
    let n := if negative then -magnitude else magnitude
    if goInt n = n then some n else none

/-! ## Listener descriptors -/

/-- `restart.ListenerDesc`; `φ` is a socket in the parent and a descriptor number in
    the child. -/
structure ListenerDesc (φ : Type) where
  name : String
  protocol : String
  file : φ
  deriving DecidableEq

abbrev Socket := Nat

/-- An entry of `cmd.ExtraFiles`. -/
inductive ExtraFile where
  | listener (socket : Socket)
  | readyW
  deriving DecidableEq

def envHandoff := "HOOT_LB_HANDOFF"
def envFDMap := "HOOT_LB_FD_MAP"
def envConfig := "HOOT_LB_CONFIG_PATH"
def envReadyFD := "HOOT_LB_READY_FD"

/-- The child that `Trigger` starts. Of two values of a variable `exec` keeps the later. -/
structure Cmd where
  extraFiles : List ExtraFile
  env : GoMap String
  deriving DecidableEq

/-- `os.Getenv` in the child. -/
def Cmd.getenv (cmd : Cmd) (key : String) : String := (cmd.env.lookup key).getD ""

/-- The file behind a descriptor of the child; 0, 1 and 2 are the standard streams. -/
def Cmd.descriptor (cmd : Cmd) (fd : Nat) : Option ExtraFile :=
  if fd < 3 then none else cmd.extraFiles[fd - 3]?

/-- What `sort.Slice` may return: equal names can come in any order. -/
def SortedByName (sorted listeners : List (ListenerDesc Socket)) : Prop :=
  sorted.Perm listeners ∧ sorted.Pairwise fun a b => a.name ≤ b.name

instance (sorted listeners : List (ListenerDesc Socket)) :
    Decidable (SortedByName sorted listeners) :=
  inferInstanceAs (Decidable (_ ∧ _))

/-- `fdPairs` of `Trigger`. -/
def fdPairs (sorted : List (ListenerDesc Socket)) : List String :=
  sorted.zipIdx.map fun (l, i) => l.name ++ ":" ++ itoa i

/-- The command `Trigger` makes out of the sorted listeners. -/
def handoffCmd (environ : GoMap String) (configPath : String)
    (sorted : List (ListenerDesc Socket)) : Except Message Cmd :=
  if sorted.isEmpty then .error (.text "restart: no listeners to hand off")
  else
    let extraFiles := (sorted.map fun l => ExtraFile.listener l.file) ++ [.readyW]
    let readyFDNum := extraFiles.length - 1 + 3
    .ok
      { extraFiles
        env := environ |>.insert envHandoff "1"
          |>.insert envFDMap (",".intercalate (fdPairs sorted))
          |>.insert envConfig configPath
          |>.insert envReadyFD (itoa readyFDNum) }

/-! ## The child -/

/-- `strings.Split` at a separator of one character. -/
def split (s : String) (sep : Char) : List String := (s.toList.splitOn sep).map String.ofList

/-- `strings.SplitN(s, sep, 2)`. -/
def splitN2 (s : String) (sep : Char) : List String :=
  match s.toList.dropWhile (· ≠ sep) with
  | [] => [s]
  | _ :: rest => [String.ofList (s.toList.takeWhile (· ≠ sep)), String.ofList rest]

/-- `os.NewFile` of an `int` turned into a `uintptr`: nil for a negative number. -/
def newFile (fd : Int) : Option Nat := if fd < 0 then none else some fd.toNat

/-- One round of the loop of `ReconstructListeners`: pairs that cannot be read are
    skipped. -/
def readPair (pair : String) : Option (ListenerDesc Nat) :=
  match splitN2 pair ':' with
  | [name, idx] =>
    match atoi idx with
    | none => none
    | some fdIdx =>
      (newFile (goInt (fdIdx + 3))).map fun file => { name, protocol := "", file }
  | _ => none

/-- `ReconstructListeners`: the listeners and the readiness pipe. -/
def reconstructListeners (getenv : String → String) : List (ListenerDesc Nat) × Option Nat :=
  if getenv envHandoff ≠ "1" then ([], none)
  else
    let fdMapStr := getenv envFDMap
    if fdMapStr = "" then ([], none)
    else
      match atoi (getenv envReadyFD) with
      | none => ([], none)
      | some readyFDNum => ((split fdMapStr ',').filterMap readPair, newFile readyFDNum)

/-- `inheritedMap` of `run`: of two descriptors with one name the later stays. -/
def inheritedMap (descs : List (ListenerDesc Nat)) : GoMap (ListenerDesc Nat) :=
  descs.foldl (fun m d => m.insert d.name d) ∅

/-! ## The registry of listeners -/

/-- Which part of the shutdown closes a listener. -/
inductive Owner where
  | metrics
  | admin
  | proxy
  deriving DecidableEq

/-- `listenerRef`, with the socket behind its `fileFn` and whether it is still open. -/
structure ListenerRef where
  name : String
  protocol : String
  owner : Owner
  socket : Socket
  isOpen : Bool
  deriving DecidableEq

/-- The listeners `run` registers for itself. -/
def internalListeners (cfg : Config) : List (String × String) :=
  (if cfg.global.metrics.enabled.getD true then [("_metrics", "http")] else []) ++
    (if cfg.global.admin.enabled.getD false then [("_admin", "http")] else [])

/-- The configured listeners `run` starts a proxy for. -/
def proxyListeners (cfg : Config) : List (String × String) :=
  (cfg.listeners.filter fun l => l.protocol ∈ ["tcp", "udp", "http"]).map
    fun l => (l.name, l.protocol)

/-! ## The process -/

/-- Who calls `triggerRestart`. -/
inductive Source where
  | sigusr2
  | admin
  deriving DecidableEq

/-- How far a call of `triggerRestart` has come. -/
inductive Phase where
  /-- The listener files are duplicated, the lock is not tried yet. -/
  | gathered (descs : List (ListenerDesc Socket))
  /-- The lock is taken. -/
  | holding (descs : List (ListenerDesc Socket))
  /-- The child runs, its readiness is waited for. -/
  | waiting (child : Nat)
  /-- `Trigger` has returned with this error. -/
  | returned (err : Option Message)
  /-- The caller has reacted to the result. -/
  | finished
  deriving DecidableEq

structure Call where
  source : Source
  phase : Phase
  deriving DecidableEq

inductive ChildState where
  | started
  | ready
  | killed
  deriving DecidableEq

structure Child where
  cmd : Cmd
  state : ChildState
  deriving DecidableEq

/-- What `run` does after `waitForSignal`, its deferred calls included. -/
inductive Shutdown where
  | closeAdmin
  /-- Close the proxy whose listener is the `i`-th of the registry. -/
  | closeProxy (i : Nat)
  | stopSIGUSR2
  | closeMetrics
  deriving DecidableEq

/-- The order of the shutdown. Deferred calls run last in, first out. -/
def shutdownOrder (listeners : List ListenerRef) : List Shutdown :=
  [.closeAdmin] ++
    (listeners.zipIdx.filter fun (l, _) => l.owner = .proxy).map (fun (_, i) => .closeProxy i) ++
    [.stopSIGUSR2, .closeAdmin, .closeMetrics]

/-- A process that can hand its listeners over. `main` is `none` while `run` waits for
    a signal, and what is left of the shutdown after that. -/
structure Process where
  environ : GoMap String
  configPath : String
  currentListeners : List ListenerRef
  adminEnabled : Bool
  listensSIGUSR2 : Bool
  inProgress : Bool
  calls : List Call
  children : List Child
  restartCh : Bool
  main : Option (List Shutdown)
  exited : Bool
  deriving DecidableEq

/-- The process when `run` starts to wait; a handoff child does not listen to SIGUSR2. -/
def newProcess (environ : GoMap String) (configPath : String) (listeners : List ListenerRef)
    (adminEnabled isHandoff : Bool) : Process :=
  { environ, configPath, currentListeners := listeners, adminEnabled
    listensSIGUSR2 := !isHandoff, inProgress := false, calls := [], children := []
    restartCh := false, main := none, exited := false }

/-- A system call of `Trigger` that fails. -/
inductive LaunchFailure where
  | pipe (err : String)
  | executable (err : String)
  | start (err : String)
  deriving DecidableEq

def LaunchFailure.message : LaunchFailure → Message
  | .pipe err => { format := "restart: creating readiness pipe: %w", args := [.str err] }
  | .executable err => { format := "restart: resolving executable: %w", args := [.str err] }
  | .start err => { format := "restart: starting child: %w", args := [.str err] }

/-- What comes first out of the readiness pipe, or the timer. -/
inductive Readiness where
  | byte (b : UInt8)
  | failed (err : String)
  | timeout
  deriving DecidableEq

/-- What `Trigger` returns for it. -/
def Readiness.error : Readiness → Option Message
  | .byte b =>
    if b = 82 then none
    else some { format := "restart: unexpected readiness byte: %q", args := [.int b.toNat] }
  | .failed err => some { format := "restart: readiness pipe: %w", args := [.str err] }
  | .timeout => some (.text "restart: child not ready within 15s")

inductive Action where
  /-- A trigger arrives and duplicates the listener files; `dup` says for which entries
      of the registry that works. -/
  | gather (source : Source) (dup : Nat → Bool)
  | tryLock (k : Nat)
  /-- From the lock to the start of the child. -/
  | launch (k : Nat) (failure : Option LaunchFailure)
  | await (k : Nat) (r : Readiness)
  /-- The caller of `Trigger` reacts to its result. -/
  | notify (k : Nat)
  /-- `waitForSignal` returns, for SIGINT or SIGTERM or for a successful handoff. -/
  | drain (signal : Bool)
  /-- The next part of the shutdown; after the last one the process ends. -/
  | shutdown

namespace Process

/-- How far call `k` has come. -/
def phase? (p : Process) (k : Nat) : Option Phase := (p.calls[k]?).map fun c => c.phase

/-- Move a call on. -/
def setPhase (p : Process) (k : Nat) (phase : Phase) : Process :=
  { p with calls := p.calls.modify k fun c => { c with phase } }

/-- `Trigger` returns, which releases the lock. -/
def release (p : Process) (k : Nat) (err : Option Message) : Process :=
  { p.setPhase k (.returned err) with inProgress := false }

/-- Whether a trigger can reach `triggerRestart`. The signal handler runs one call after
    the other. A request that was accepted before the admin server closed may reach its
    handler after that. -/
def accepts (p : Process) : Source → Bool
  | .sigusr2 => p.listensSIGUSR2 &&
      p.calls.all fun c => c.source ≠ .sigusr2 || c.phase = .finished
  | .admin => p.adminEnabled

/-- The loop of `triggerRestart`: closed listeners and failed duplications are skipped. -/
def descs (p : Process) (dup : Nat → Bool) : List (ListenerDesc Socket) :=
  p.currentListeners.zipIdx.filterMap fun (l, i) =>
    if l.isOpen && dup i then some { name := l.name, protocol := l.protocol, file := l.socket }
    else none

/-- Close the listeners of one owner. -/
def closeListeners (p : Process) (owner : Owner) : Process :=
  { p with
    currentListeners := p.currentListeners.map fun l =>
      if l.owner = owner then { l with isOpen := false } else l }

def runShutdown (p : Process) : Shutdown → Process
  | .closeAdmin => p.closeListeners .admin
  | .closeProxy i =>
    { p with currentListeners := p.currentListeners.modify i fun l => { l with isOpen := false } }
  | .stopSIGUSR2 => { p with listensSIGUSR2 := false }
  | .closeMetrics => p.closeListeners .metrics

/-- The listeners in the order of their names. -/
def sortListeners (descs : List (ListenerDesc Socket)) : List (ListenerDesc Socket) :=
  descs.insertionSort fun a b => a.name ≤ b.name

/-- `Trigger` between the lock and the readiness pipe. -/
def launch (p : Process) (k : Nat) (descs : List (ListenerDesc Socket))
    (failure : Option LaunchFailure) : Process :=
  match handoffCmd p.environ p.configPath (sortListeners descs), failure with
  | .error err, _ => p.release k (some err)
  | .ok _, some failure => p.release k (some failure.message)
  | .ok cmd, none =>
    { p.setPhase k (.waiting p.children.length) with
      children := p.children ++ [{ cmd, state := .started }] }

/-- `Trigger` once something came out of the pipe, or the timer fired. -/
def await (p : Process) (k child : Nat) (r : Readiness) : Process :=
  let state := if r.error.isNone then ChildState.ready else .killed
  { p.release k r.error with children := p.children.modify child fun c => { c with state } }

/-- Run one action; one that cannot happen in this state changes nothing. -/
def step (p : Process) (a : Action) : Process :=
  if p.exited then p
  else
    match a with
    | .gather source dup =>
      if p.accepts source then
        { p with calls := p.calls ++ [{ source, phase := .gathered (p.descs dup) }] }
      else p
    | .tryLock k =>
      match p.phase? k with
      | some (.gathered descs) =>
        if p.inProgress then
          p.setPhase k (.returned (some (.text "restart: handoff already in progress")))
        else { p.setPhase k (.holding descs) with inProgress := true }
      | _ => p
    | .launch k failure =>
      match p.phase? k with
      | some (.holding descs) => p.launch k descs failure
      | _ => p
    | .await k r =>
      match p.phase? k with
      | some (.waiting child) => p.await k child r
      | _ => p
    | .notify k =>
      match p.phase? k with
      | some (.returned err) =>
        -- the channel has room for one value
        { p.setPhase k .finished with restartCh := p.restartCh || err.isNone }
      | _ => p
    | .drain signal =>
      match p.main with
      | some _ => p
      | none =>
        if signal then { p with main := some (shutdownOrder p.currentListeners) }
        else if p.restartCh then
          { p with main := some (shutdownOrder p.currentListeners), restartCh := false }
        else p
    | .shutdown =>
      match p.main with
      | none => p
      | some [] => { p with exited := true }
      | some (s :: rest) => { p.runShutdown s with main := some rest }

end Process

/-! ## The successor -/

/-- `IsHandoff`. -/
def isHandoff (environ : GoMap String) : Bool := (environ.lookup envHandoff).getD "" = "1"

/-- A listener that `run` is to register. -/
structure Registration where
  name : String
  protocol : String
  owner : Owner
  deriving DecidableEq

/-- A listener of a process that was started with `cmd`: the inherited one of that name,
    or else a new one, whose socket is `bind name`. A descriptor that is no listener ends
    `run` with an error. -/
def adopt (cmd : Cmd) (bind : String → Socket) (r : Registration) : Option ListenerRef :=
  let ref (socket : Socket) : ListenerRef :=
    { name := r.name, protocol := r.protocol, owner := r.owner, socket, isOpen := true }
  match (inheritedMap (reconstructListeners cmd.getenv).1).lookup r.name with
  | none => some (ref (bind r.name))
  | some d =>
    match cmd.descriptor d.file with
    | some (.listener socket) => some (ref socket)
    | _ => none

/-- `run` of a process that `p` has started with `cmd`, up to its wait. It has the arguments
    of `p`, and with them the path of its configuration; what it registers depends on
    what it finds there. -/
def Process.successor (p : Process) (cmd : Cmd) (bind : String → Socket)
    (registrations : List Registration) (adminEnabled : Bool) : Option Process :=
  (registrations.mapM (adopt cmd bind)).map fun listeners =>
    newProcess cmd.env p.configPath listeners adminEnabled (isHandoff cmd.env)

end HootLb.Restart
