import RedisShake.Configure

set_option autoImplicit false

namespace RedisShake.Run

open Go

/-- `cmdDetail`: a command name and its arguments. -/
structure CmdDetail where
  cmd : String
  args : List String
deriving DecidableEq, Repr

/-- `length` in the sender loop: the bytes of the name and of every argument. -/
def CmdDetail.length (c : CmdDetail) : Nat :=
  c.cmd.utf8ByteSize + (c.args.map String.utf8ByteSize).sum

def CmdDetail.isSelect (c : CmdDetail) : Bool := equalFold c.cmd "select"

def CmdDetail.isOpinfo (c : CmdDetail) : Bool := equalFold c.cmd "opinfo"

/-- A command that is neither the exact `ping` the parser lets through nor a `select` or an
`opinfo` marker. -/
def CmdDetail.isData (c : CmdDetail) : Bool := c.cmd != "ping" && !c.isSelect && !c.isOpinfo

/-- The parser goroutine's variables that live across commands. -/
structure ParserState where
  lastdb : Int
  bypass : Bool
deriving DecidableEq, Repr

def ParserState.init : ParserState := ⟨0, false⟩

/-- What one pass of the parser loop does with a command: send it into `sendBuf`, or count
it in `nbypass`, together with the metric's bypass counter or not. -/
inductive Verdict where
  | push (c : CmdDetail)
  | bypass (metric : Bool)
deriving DecidableEq, Repr

/-- The db a `select` names, or the panic the parser raises on it. -/
def selectDB (id : Nat) (args : List String) : Except String Int :=
  match args with
  | [s] =>
    match atoi s with
    | (n, none) => .ok n
    | (_, some _) => .error s!"dbSyncer[{id}] parse db = {s} failed"
  | args =>
    let n := args.length
    .error s!"dbSyncer[{id}] select command len(args) = {n}"

/-- The `scmd != "ping"` block: the new `bypass`, then `isselect` and `ignorecmd`. -/
def classify (co : Collaborators) (id : Nat) (bypass : Bool) (c : CmdDetail) :
    Except String (Bool × Bool × Bool) :=
  if c.cmd = "ping" then .ok (bypass, false, false)
  else if c.isSelect then
    match selectDB id c.args with
    | .ok n => .ok (!co.acceptDB (toUint32 n), true, false)
    | .error e => .error e
  else .ok (bypass, false, c.isOpinfo)

/-- `new_argv` and `is_filter`: `GetMatchKeys` for a registered command with arguments when
`filter.key` is set, the arguments unchanged otherwise. -/
def keyFilter (co : Collaborators) (o : Configuration) (c : CmdDetail) : List String × Bool :=
  if o.filterKey ≠ [] ∧ co.redisCommands c.cmd = true ∧ c.args ≠ [] then
    co.getMatchKeys c.cmd c.args o.filterKey
  else (c.args, true)

/-- The rest of the loop body once `classify` has run. -/
def route (co : Collaborators) (o : Configuration) (st : ParserState)
    (isselect ignorecmd : Bool) (c : CmdDetail) : ParserState × Verdict :=
  if c.cmd != "ping" && (st.bypass || ignorecmd) then (st, .bypass true)
  else if st.bypass || ignorecmd || !(keyFilter co o c).2 then (st, .bypass false)
  else if isselect && o.targetDB != -1 then
    if o.targetDB != st.lastdb then
      ({ st with lastdb := toInt32 o.targetDB },
        .push ⟨"SELECT", [toString (toInt32 o.targetDB)]⟩)
    else (st, .bypass true)
  else (st, .push ⟨c.cmd, (keyFilter co o c).1⟩)

/-- One pass of the parser loop of `syncCommand` on a decoded command. -/
def parseCommand (co : Collaborators) (o : Configuration) (id : Nat) (st : ParserState)
    (c : CmdDetail) : Except String (ParserState × Verdict) :=
  match classify co id st.bypass c with
  | .ok (bypass, isselect, ignorecmd) => .ok (route co o { st with bypass } isselect ignorecmd c)
  | .error e => .error e

/-- The parser loop over a stream: the final state and every verdict, or the first panic. -/
def parseStream (co : Collaborators) (o : Configuration) (id : Nat) :
    ParserState → List CmdDetail → Except String (ParserState × List Verdict)
  | st, [] => .ok (st, [])
  | st, c :: cs =>
    match parseCommand co o id st c with
    | .error e => .error e
    | .ok (st', v) =>
      match parseStream co o id st' cs with
      | .error e => .error e
      | .ok (st'', vs) => .ok (st'', v :: vs)

/-- The commands a list of verdicts sends into `sendBuf`, in order. -/
def pushed : List Verdict → List CmdDetail
  | [] => []
  | .push c :: vs => c :: pushed vs
  | .bypass _ :: vs => pushed vs

@[simp] theorem pushed_nil : pushed [] = [] := rfl

@[simp] theorem pushed_push (c : CmdDetail) (vs : List Verdict) :
    pushed (.push c :: vs) = c :: pushed vs := rfl

@[simp] theorem pushed_bypass (m : Bool) (vs : List Verdict) :
    pushed (.bypass m :: vs) = pushed vs := rfl

theorem pushed_append (us vs : List Verdict) : pushed (us ++ vs) = pushed us ++ pushed vs := by
  induction us with
  | nil => rfl
  | cons u us ih => cases u <;> simp [ih]

/-! ### The verdict for each kind of command -/

section Kinds

variable (co : Collaborators) (o : Configuration) (id : Nat) (st : ParserState) (c : CmdDetail)

theorem isSelect_of_ping (ping : c.cmd = "ping") : c.isSelect = false := by
  simp only [CmdDetail.isSelect, ping]; decide

theorem isOpinfo_of_ping (ping : c.cmd = "ping") : c.isOpinfo = false := by
  simp only [CmdDetail.isOpinfo, ping]; decide

theorem isOpinfo_of_isSelect (select : c.isSelect = true) : c.isOpinfo = false := by
  unfold CmdDetail.isSelect at select
  unfold CmdDetail.isOpinfo
  obtain ⟨⟨data⟩, args⟩ := c
  have letters : "select".data = ['s', 'e', 'l', 'e', 'c', 't'] ∧
      "opinfo".data = ['o', 'p', 'i', 'n', 'f', 'o'] := ⟨rfl, rfl⟩
  cases data with
  | nil => simp [equalFold, String.length, letters] at select
  | cons c rest =>
    simp only [equalFold, String.toList, letters, List.zip_cons_cons, List.all_cons,
      Bool.and_eq_true, beq_iff_eq] at select ⊢
    have first : foldRune c = 's' := select.2.1
    have other : foldRune 'o' = 'o' := by decide
    simp [first, other]

theorem parseCommand_ping (ping : c.cmd = "ping") :
    parseCommand co o id st c = .ok (st, if st.bypass || !(keyFilter co o c).2
      then .bypass false else .push ⟨c.cmd, (keyFilter co o c).1⟩) := by
  simp [parseCommand, classify, route, ping, isSelect_of_ping, isOpinfo_of_ping]
  split <;> rfl

theorem parseCommand_select (select : c.isSelect = true) (n : Int)
    (named : selectDB id c.args = .ok n) :
    parseCommand co o id st c =
      .ok (route co o { st with bypass := !co.acceptDB (toUint32 n) } true false c) := by
  have notPing : c.cmd ≠ "ping" := fun ping => by simp [isSelect_of_ping c ping] at select
  simp [parseCommand, classify, notPing, select, named]

theorem parseCommand_other (notPing : c.cmd ≠ "ping") (notSelect : c.isSelect = false) :
    parseCommand co o id st c = .ok (route co o st false c.isOpinfo c) := by
  simp [parseCommand, classify, notPing, notSelect]

end Kinds

/-! ### The parser's panic -/

/-- The panic the parser loop raises on a command: a `select` that does not name a db by one
integer. -/
def panicOf (id : Nat) (c : CmdDetail) : Option String :=
  if c.isSelect then
    match selectDB id c.args with
    | .error e => some e
    | .ok _ => none
  else none

theorem parseCommand_eq_error (co : Collaborators) (o : Configuration) (id : Nat)
    (st : ParserState) (c : CmdDetail) (e : String) :
    parseCommand co o id st c = .error e ↔ panicOf id c = some e := by
  by_cases ping : c.cmd = "ping"
  next => simp [parseCommand, classify, panicOf, ping, isSelect_of_ping c ping]
  by_cases select : c.isSelect = true
  next => cases named : selectDB id c.args <;> simp [parseCommand, classify, panicOf, ping, select, named]
  next => simp [parseCommand, classify, panicOf, ping, select]

theorem parseStream_eq_error (co : Collaborators) (o : Configuration) (id : Nat) :
    ∀ (st : ParserState) (cs : List CmdDetail) (e : String),
      parseStream co o id st cs = .error e ↔ cs.findSome? (panicOf id) = some e
  | st, [], e => by simp [parseStream]
  | st, c :: cs, e => by
    have head := parseCommand_eq_error co o id st c
    cases parsed : parseCommand co o id st c with
    | error e' =>
      have panic : panicOf id c = some e' := (head e').mp parsed
      simp [parseStream, parsed, List.findSome?_cons, panic]
    | ok r =>
      obtain ⟨st', v⟩ := r
      have quiet : panicOf id c = none := by
        cases panic : panicOf id c with
        | none => rfl
        | some e' => simp [← head e', parsed] at panic
      have tail := parseStream_eq_error co o id st' cs e
      simp only [parseStream, parsed, List.findSome?_cons, quiet]
      split <;> simp_all

end RedisShake.Run
