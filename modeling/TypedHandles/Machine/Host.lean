import TypedHandles.Handle.Construction
import TypedHandles.Linker

/-!
Code that the host supplies. It is a tree: it ends with a result, or asks the machine to perform one
of its operations and goes on with the answer. So host code may do all that a user of the library
may do, calls and links included, and it sees the state through the answers alone.
-/
namespace TypedHandles

mutual

/-- A run of host code. -/
inductive HostTask where
  | done (result : Except Failure Value)
  | ask (question : Operation) (resume : Except Failure Value → HostTask)

/-- An operation of the library. A call point comes with the bootstrap that links it. -/
inductive Operation where
  | construct (construction : Construction)
  /-- The factory of a lambda: it binds its arguments to the implementation. -/
  | lambdaFactory (name : String) (factory : Signature) (implementation : Handle)
    (instantiated : Signature)
  | perform (action : Action) (args : List Value)
  | invokeExact (target : Handle) (args : List Value)
  | invoke (target : Handle) (args : List Value)
  | invokeAs (target : Handle) (caller : Signature) (args : List Value)
  | newObject (cls : ClassDef) (fields : List Value)
  | newThrowable (cls : ClassDef) (message : String)
  | getField (object : ObjectRef) (index : Nat)
  | setField (object : ObjectRef) (index : Nat) (value : Value)
  | suppress (throwable other : Throwable)
  | newSite (kind : SiteKind) (target : Handle)
  | newUnlinkedSite (kind : SiteKind) (signature : Signature)
  | siteTarget (site : CallSite)
  | setTarget (site : CallSite) (target : Handle)
  | setTargetPlain (site : CallSite) (target : Handle)
  | setTargetFenced (site : CallSite) (target : Handle)
  | registerStatic (registry : Nat) (owner name : String) (member : StaticMember)
  | registerClass (registry : Nat) (cls : ClassDef)
  | find (lookup : Lookup) (request : MemberRequest)
  | findMember (lookup : Lookup) (query : MemberQuery)
  | cachedConstant (cache : Nat) (kind : Kind) (value : Value)
  | cachedIdentity (cache : Nat) (kind : Kind)
  | clearCache (cache : Nat)
  | bootstrap (lookup : Lookup) (point : Descriptor) (method : Lookup → Descriptor → HostTask)
  | resolve (linker : Linker) (point : Descriptor) (method : Lookup → Descriptor → HostTask)
  | link (linker : Linker) (id : UInt64) (point : Descriptor)
    (method : Lookup → Descriptor → HostTask)
  | unregister (linker : Linker) (id : UInt64)
  | invokePoint (linker : Linker) (id : UInt64) (point : Descriptor)
    (method : Lookup → Descriptor → HostTask) (args : List Value)
  /-- Reads a counter of the host and moves it on by one. -/
  | count (counter : Nat)

end

/-- Resolves a call point for a lookup. -/
abbrev Bootstrap := Lookup → Descriptor → HostTask

/-- The functions of a host, by their number. -/
abbrev Host := HostFunction → List Value → HostTask

namespace HostTask

/-- Ends with a value. -/
def value (v : Value) : HostTask := .done (.ok v)

/-- Ends with a failure. -/
def fail (failure : Failure) : HostTask := .done (.error failure)

/-- Asks, and ends with the failure if the answer is one. -/
def andThen (question : Operation) (next : Value → HostTask) : HostTask :=
  .ask question fun
    | .ok v => next v
    | .error failure => fail failure

/-- Asks, and ends with the answer. -/
def last (question : Operation) : HostTask := .ask question .done

/-- Throws a new throwable. -/
def throwing (c : ClassDef) (message : String) : HostTask :=
  andThen (.newThrowable c message) fun
    | .throwable t => fail (.thrown t)
    | _ => value .null

end HostTask
end TypedHandles
