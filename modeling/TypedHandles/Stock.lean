import TypedHandles.Lambda
import TypedHandles.Value.Key

/-!
A stock of host functions, bootstraps and gates, as data, for hosts that need no code of their own.
-/
namespace TypedHandles
namespace Stock

/-- The failures that a stock function can be told to end with. -/
inductive FailureChoice where
  | fatal | denied | cast | count | member | illegal
  deriving DecidableEq, Repr

/-- The failure of a choice, with a text for its message. -/
def FailureChoice.failure (text : String) : FailureChoice → Failure
  | .fatal => .fatal text
  | .denied => .accessDenied (.stated text)
  | .cast => .classCast text "Target"
  | .count => .wrongArgumentCount 1 2
  | .member => .noSuchMember "Host" text
  | .illegal => .illegalArgument (.stated text)

/-- The choice of a name; any other name stands for an illegal argument. -/
def FailureChoice.ofName : String → FailureChoice
  | "fatal" => .fatal
  | "denied" => .denied
  | "cast" => .cast
  | "count" => .count
  | "member" => .member
  | _ => .illegal

/-- What a stock function does with its arguments. Numbers that are missing or of another kind count
as zero. -/
inductive Body where
  | add | sub | mul
  /-- The quotient, which is cut off toward zero; a zero divisor throws. -/
  | div (byZero : ClassDef)
  | neg | inc | dec | double
  | less | greater | equal | positive | even
  | addLong | addFloat | addDouble | mulDouble
  | describe | display | concat
  | argument (index : Nat)
  | value (v : Value)
  | nothing | count | sum
  | pack (element : Kind)
  | typeName | message
  | field (index : Nat)
  | throwing (cls : ClassDef) (message : String)
  /-- Throws if there is an argument at a position and it equals a value; else yields it. -/
  | throwOn (index : Nat) (trigger : Value) (cls : ClassDef) (message : String)
  | rethrow (index : Nat)
  | fail (choice : FailureChoice) (text : String)
  | call (target : Handle) (loose : Bool)
  | retarget (site : CallSite) (target : Handle)

/-- The names of the stock functions that are made from nothing. -/
def Body.named : List (String × Body) :=
  [("add", .add), ("sub", .sub), ("mul", .mul), ("neg", .neg), ("inc", .inc), ("dec", .dec),
    ("double", .double), ("lt", .less), ("gt", .greater), ("eq", .equal), ("positive", .positive),
    ("even", .even), ("ladd", .addLong), ("fadd", .addFloat), ("dadd", .addDouble),
    ("dmul", .mulDouble), ("describe", .describe), ("show", .display), ("cat", .concat),
    ("void", .nothing), ("count", .count), ("sum", .sum), ("type", .typeName),
    ("message", .message)]

/-- The argument at a position, as far as it is an int. -/
def intAt (args : List Value) (index : Nat) : Int32 := (args[index]?.bind Value.int?).getD 0

def longAt (args : List Value) (index : Nat) : Int64 := (args[index]?.bind Value.long?).getD 0

/-- The pattern of the argument at a position, as far as it is a float. -/
def floatAt (args : List Value) (index : Nat) : Nat :=
  match args[index]? with
  | some (.float bits) => bits.toNat
  | _ => 0

def doubleAt (args : List Value) (index : Nat) : Nat :=
  match args[index]? with
  | some (.double bits) => bits.toNat
  | _ => 0

/-- The argument at a position, or `void`. -/
def argumentAt (args : List Value) (index : Nat) : Value := args[index]?.getD .void

/-- The sum of the ints of a list. -/
def sumInts (vs : List Value) : Int32 := (vs.map fun v => v.int?.getD 0).foldl (· + ·) 0

/-- The sum of the ints among the arguments and in the arrays among them. -/
def sumAll (args : List Value) : Int32 :=
  let part : Value → Int32
    | .array _ items => sumInts items
    | v => v.int?.getD 0
  (args.map part).foldl (· + ·) 0

/-- The text of a text, and the displayed form of anything else. -/
def rawText : Value → String
  | .str s => s
  | v => v.text

/-- The run of a stock function. -/
def Body.task (body : Body) (args : List Value) : HostTask :=
  let i := intAt args
  match body with
  | add => .value (.int (i 0 + i 1))
  | sub => .value (.int (i 0 - i 1))
  | mul => .value (.int (i 0 * i 1))
  | div byZero => if i 1 = 0 then .throwing byZero "/ by zero" else .value (.int (i 0 / i 1))
  | neg => .value (.int (-i 0))
  | inc => .value (.int (i 0 + 1))
  | dec => .value (.int (i 0 - 1))
  | double => .value (.int (i 0 + i 0))
  | less => .value (.bool (i 0 < i 1))
  | greater => .value (.bool (i 1 < i 0))
  | equal => .value (.bool (i 0 == i 1))
  | positive => .value (.bool (0 < i 0))
  | even => .value (.bool (i 0 % 2 == 0))
  | addLong => .value (.long (longAt args 0 + longAt args 1))
  | addFloat =>
    .value (.float (.ofNat (BinaryFormat.single.add (floatAt args 0) (floatAt args 1))))
  | addDouble =>
    .value (.double (.ofNat (BinaryFormat.double.add (doubleAt args 0) (doubleAt args 1))))
  | mulDouble =>
    .value (.double (.ofNat (BinaryFormat.double.mul (doubleAt args 0) (doubleAt args 1))))
  | describe => .value (.str s!"n={(i 0).toInt}")
  | display => .value (.str (", ".intercalate (args.map Value.text)))
  | concat => .value (.str (String.join (args.map rawText)))
  | argument index => .value (argumentAt args index)
  | value v => .value v
  | nothing => .value .void
  | count => .value (.int (.ofNat args.length))
  | sum => .value (.int (sumAll args))
  | pack element => .value (.array element args)
  | typeName => .value (.str ((args.head?.map Value.typeName).getD "none"))
  | message =>
    match args with
    | .throwable t :: _ => .value (.str t.message)
    | _ => .value (.str "none")
  | field index =>
    match args with
    | .object o :: _ => .last (.getField o index)
    | _ => .value .null
  | throwing cls text => .throwing cls text
  | throwOn index trigger cls text =>
    if args[index]?.any (·.equal trigger) then .throwing cls text
    else .value (argumentAt args index)
  | rethrow index =>
    match argumentAt args index with
    | .throwable t => .fail (.thrown t)
    | _ => .value .null
  | fail choice text => .fail (choice.failure text)
  | call target loose => .last (if loose then .invoke target args else .invokeExact target args)
  | retarget site target => .last (.setTarget site target)

/-- A stock bootstrap. -/
inductive Method where
  | lambda
  /-- A static function of the point's name and signature, in a new site. -/
  | static (owner : String) (site : SiteKind)
  /-- A static function of the point's name, with the static arguments bound to it. -/
  | bind (owner : String) (signature : Signature)
  | value (v : Value)
  /-- The first static argument. -/
  | first
  /-- A site without a target. -/
  | unlinked
  | fail (choice : FailureChoice) (text : String)
  | throwing (cls : ClassDef) (message : String)
  /-- The first run takes the first method, each later run the next one, and the last for ever. The
  runs are counted by a counter. -/
  | sequence (counter : Nat) (methods : List Method)

/-- Goes on with a handle. -/
def withHandle (question : Operation) (next : Handle → HostTask) : HostTask :=
  .andThen question fun
    | .handle h => next h
    | other => .value other

mutual

/-- The bootstrap of a stock method. -/
def Method.run : Method → Bootstrap
  | .lambda => Lambda.bootstrap
  | .static owner site => fun lookup point =>
    withHandle (.findMember lookup (.static owner point.name point.signature)) fun h =>
      .last (.newSite site h)
  | .bind owner signature => fun lookup point =>
    withHandle (.findMember lookup (.static owner point.name signature)) fun h =>
      withHandle (.construct (.insertArguments h 0 point.staticArgs)) fun bound =>
        withHandle (.construct (.asType bound point.signature)) fun typed =>
          .last (.newSite .constant typed)
  | .value v => fun _ _ => .value v
  | .first => fun _ point => .value (point.staticArgs.head?.getD .void)
  | .unlinked => fun _ point => .last (.newUnlinkedSite .mutable point.signature)
  | .fail choice text => fun _ _ => .fail (choice.failure text)
  | .throwing cls text => fun _ _ => .throwing cls text
  | .sequence counter methods => fun lookup point =>
    .andThen (.count counter) fun
      | .long n => Method.runAt methods n.toNatClampNeg lookup point
      | other => .value other

/-- The bootstrap that stands at a position of a sequence. -/
def Method.runAt : List Method → Nat → Bootstrap
  | [], _ => fun _ _ => .value .void
  | [m], _ => fun lookup point => .last (.bootstrap lookup point m.run)
  | m :: _, 0 => fun lookup point => .last (.bootstrap lookup point m.run)
  | _ :: rest, n + 1 => Method.runAt rest n

end

/-- A rule that denies requests: every part that it gives has to match. -/
structure DenyRule where
  caller : Option String
  owner : Option String
  kind : Option MemberKind

/-- Whether a rule matches a request. -/
def DenyRule.hits (rule : DenyRule) (caller : String) (request : MemberRequest) : Bool :=
  (rule.caller.map (· == caller)).getD true && (rule.owner.map (· == request.owner)).getD true &&
    (rule.kind.map (· == request.kind)).getD true

/-- The gate that denies every request that some rule matches. -/
def gate (rules : List DenyRule) : Gate := fun caller request =>
  if rules.any (·.hits caller request) then
    .error (.accessDenied (.stated (caller ++ " may not touch " ++ request.text)))
  else .ok ()

end Stock
end TypedHandles
