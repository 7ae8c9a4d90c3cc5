import TypedHandles.Machine.Host

/-!
Lambdas: an implementation handle whose leading parameters are captured where the lambda is made,
and whose other parameters come from the interface method. `Lambda.validate` decides whether the
pieces fit; `Lambda.bootstrap` is the bootstrap that links the place where a lambda is made.
-/
namespace TypedHandles
namespace Lambda

/-- The first captured kind that is not the implementation's own. -/
def capturedFault? (captured : List Kind) (implementation : Signature) : Option LambdaFault :=
  (captured.zip implementation.params).mapIdx (fun i (found, wanted) => (i, found, wanted))
    |>.find? (fun (_, found, wanted) => found != wanted)
    |>.map fun (i, found, wanted) => .captured i found wanted

/-- The first supplied kind that does not convert to the implementation's. -/
def suppliedFault? (captured : Nat) (implementation instantiated : Signature) :
    Option LambdaFault :=
  (instantiated.params.zip (implementation.paramsFrom captured)).mapIdx
      (fun i (supplied, wanted) => (i, supplied, wanted))
    |>.find? (fun (_, supplied, wanted) => !supplied.isConvertibleTo wanted)
    |>.map fun (i, supplied, wanted) => .parameter i supplied wanted

/-- What keeps the implementation's result from being the lambda's. A `void` lambda takes any. -/
def returnFault? (implementation instantiated : Signature) : Option LambdaFault :=
  if instantiated.returnsVoid then none
  else if implementation.returnsVoid then some (.voidReturn instantiated.ret)
  else if !implementation.ret.isConvertibleTo instantiated.ret then
    some (.returnKind implementation.ret instantiated.ret)
  else none

/-- The first place where the pieces of a lambda do not fit. -/
def fault? (captured : List Kind) (sam implementation instantiated : Signature) :
    Option LambdaFault :=
  if implementation.arity ≠ captured.length + sam.arity then
    some (.arity implementation captured.length sam.arity)
  else if instantiated.arity ≠ sam.arity then some (.instantiatedArity instantiated sam)
  else
    capturedFault? captured implementation
      <|> suppliedFault? captured.length implementation instantiated
      <|> returnFault? implementation instantiated

/-- Checks that an implementation, on captured values and then the arguments of the interface method
`sam`, can stand behind that method at the signature `instantiated`. -/
def validate (captured : List Kind) (sam : Signature) (implementation : Handle)
    (instantiated : Signature) : Except Failure Unit :=
  match fault? captured sam implementation.signature instantiated with
  | some fault => .error (.lambdaShapeMismatch fault)
  | none => .ok ()

/-- Whether a factory of this signature can return a handle. -/
def returnsHandle (factory : Signature) : Bool :=
  match factory.ret with
  | .ref t => RefType.handle.isSubtypeOf t
  | _ => false

/-- The bootstrap of lambda factories. Its static arguments are the interface signature, the
implementation and the instantiated signature; the parameters of the call point are the captured
kinds. The linked site returns a handle of the instantiated signature: one and the same when nothing
is captured, else a new one for each list of captured values. -/
def bootstrap : Bootstrap := fun lookup point =>
  match point.staticArgs with
  | [.signature sam, .handle implementation, .signature instantiated] =>
    let factory := point.signature
    let published : Value → HostTask
      | .handle target => .last (.newSite .constant target)
      | other => .value other
    if !returnsHandle factory then .fail (.lambdaShapeMismatch (.factoryReturn factory))
    else
      match validate factory.params sam implementation instantiated with
      | .error failure => .fail failure
      | .ok () =>
        if factory.params.isEmpty then
          .andThen (.construct (.asType implementation instantiated)) fun made =>
            .andThen (.cachedConstant lookup.cache factory.ret made) published
        else
          .andThen (.lambdaFactory point.name factory implementation instantiated) published
  | args => .fail (.illegalArgument (.lambdaArguments args.length))

end Lambda
end TypedHandles
