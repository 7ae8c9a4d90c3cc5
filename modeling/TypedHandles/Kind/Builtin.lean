import TypedHandles.Kind

/-!
The throwable classes that the library itself raises.
-/
namespace TypedHandles
namespace ClassDef

/-- A throwable class without members. -/
def throwableClass (name : String) (superclass : RefType) (isFinal : Bool) : ClassDef :=
  ⟨name, some superclass, isFinal, [], []⟩

/-- The root of the failures that a program may throw. -/
def runtimeException : ClassDef := throwableClass "RuntimeException" .throwable false

/-- Thrown where a reference is missing. -/
def nullPointer : ClassDef := throwableClass "NullPointerException" (.cls runtimeException) false

/-- Thrown by arithmetic without a result. -/
def arithmetic : ClassDef := throwableClass "ArithmeticException" (.cls runtimeException) false

/-- Thrown where an array has no such item. -/
def indexOutOfBounds : ClassDef :=
  throwableClass "IndexOutOfBoundsException" (.cls runtimeException) false

/-- What a cleanup gets to see of a failure that is no throwable. -/
def invocationFailure : ClassDef := throwableClass "InvocationFailure" (.cls runtimeException) true

/-- All throwable classes of the library. -/
def builtins : List ClassDef :=
  [runtimeException, nullPointer, arithmetic, indexOutOfBounds, invocationFailure]

end ClassDef
end TypedHandles
