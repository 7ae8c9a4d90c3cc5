import TypedHandles.Proofs.Dispatch
import TypedHandles.Proofs.Layers

/-!
Throwing a value and catching it again.

A handle that throws takes the instances of its throwable type. A throwable is thrown as it is, and
a handler around gets this very throwable if it is of the handler's type. An object of a throwable
class is an instance of the type as well, but it is not thrown: the failure says that it is no
`Throwable`, and it passes every handler.
-/
namespace TypedHandles

variable {host : Host} {n : Nat} {args : List Value} {s s' : State}

/-! Handlers around a handle that fails. -/

namespace Layer

/-- What a layer makes of a failure of the handle that it is around. -/
theorem call_of_failed {layer : Layer} {inner h : Handle} {u u' : HandleTable} {failure : Failure}
    (made : (layer.construction inner).build u = (.ok h, u'))
    (lengths : args.length = inner.signature.arity)
    (failed : (runCode host n).call inner args s = (.error (.failed failure), s')) :
    (runCode host (n + 1)).call h args s =
      (inner.signature.ret.kept <$>
        (layer.settle (runCode host n) inner.signature.ret args (.error failure) >>=
          Exec.ofExcept)) s' := by
  have outcome : ((runCode host n).call inner args).attempt s = (.ok (.error failure), s') := by
    rw [Exec.attempt_apply, failed]
    rfl
  rw [call_eq made lengths, bind_assoc, map_bind]
  exact bind_of_ok outcome

variable {target handler g : Handle} {exception : RefType} {u u' : HandleTable} {run : Runner}
  {ret : Kind}

theorem settle_caught {t : Throwable} (caught : t.refType.isSubtypeOf exception = true) :
    (catching exception handler).settle run ret args (.error (.thrown t)) =
      (run.call handler (.throwable t :: args.take (handler.arity - 1))).attempt :=
  if_pos caught

theorem settle_passed {failure : Failure}
    (other : ∀ t, failure = .thrown t → t.refType.isSubtypeOf exception = false) :
    (catching exception handler).settle run ret args (.error failure) = pure (.error failure) := by
  cases failure with
  | thrown t => exact if_neg (by simp [other t rfl])
  | _ => rfl

theorem catchException_signature
    (made : (Construction.catchException target exception handler).build u = (.ok g, u')) :
    g.signature = target.signature := by
  have made : ((catching exception handler).construction target).build u = (.ok g, u') := made
  exact (of_build made).1

/-- A handler is called on the throwable, and nothing else is, if the throwable is of its type. -/
theorem call_caught {t : Throwable}
    (made : (Construction.catchException target exception handler).build u = (.ok g, u'))
    (lengths : args.length = target.signature.arity)
    (thrown : (runCode host n).call target args s = (.error (.failed (.thrown t)), s'))
    (caught : t.refType.isSubtypeOf exception = true) :
    (runCode host (n + 1)).call g args s =
      (target.signature.ret.kept <$> (runCode host n).call handler
        (.throwable t :: args.take (handler.arity - 1))) s' := by
  have made : ((catching exception handler).construction target).build u = (.ok g, u') := made
  rw [call_of_failed made lengths thrown, settle_caught caught, Exec.attempt_bind_ofExcept]

/-- Every other failure passes the handler. -/
theorem call_passed {failure : Failure}
    (made : (Construction.catchException target exception handler).build u = (.ok g, u'))
    (lengths : args.length = target.signature.arity)
    (failed : (runCode host n).call target args s = (.error (.failed failure), s'))
    (other : ∀ t, failure = .thrown t → t.refType.isSubtypeOf exception = false) :
    (runCode host (n + 1)).call g args s = (.error (.failed failure), s') := by
  have made : ((catching exception handler).construction target).build u = (.ok g, u') := made
  rw [call_of_failed made lengths failed, settle_passed other]
  rfl

end Layer

/-! Handles that throw their argument. -/

/-- A handle that throws is accepted for every throwable type. -/
theorem Blueprint.throwException_eq {exception : RefType} (throwable : exception.isThrowable = true)
    (ret : Kind) : throwException ret exception =
      .ok (ofAction ⟨ret, [.ref exception]⟩ (.intrinsic .throwArgument)) := by
  have made : Signature.make ret [.ref exception] = .ok ⟨ret, [.ref exception]⟩ :=
    Signature.make_eq_ok_iff.2 ⟨rfl, ⟨by simp [Signature.maxArity], by simp⟩⟩
  unfold throwException
  rw [throwable, made]
  rfl

theorem RefType.throwable_or_cls {type : RefType} (throwable : type.isThrowable = true) :
    type = .throwable ∨ ∃ c, type = .cls c := by
  cases type with
  | throwable => exact .inl rfl
  | cls c => exact .inr ⟨c, rfl⟩
  | array element => cases element <;> simp [isThrowable, isSubtypeOf, BEq.beq, same] at throwable
  | _ => simp [isThrowable, isSubtypeOf, BEq.beq, same] at throwable

/-- The instances of a throwable type are throwables and objects. -/
theorem Value.instance_of_throwable {v : Value} {exception : RefType}
    (throwable : exception.isThrowable = true) (present : v ≠ .null)
    (conforms : v.conforms (.ref exception) = true) :
    (∃ o, v = .object o) ∨ ∃ t, v = .throwable t := by
  obtain rfl | ⟨type, own, below⟩ := conforms_ref_iff.1 conforms
  · exact absurd rfl present
  have known : type = .throwable ∨ ∃ d, type = .cls d := by
    rcases RefType.throwable_or_cls throwable with rfl | ⟨c, rfl⟩
    · exact RefType.throwable_or_cls below
    · exact .inr (RefType.eq_cls_of_isSubtypeOf below)
  rcases known with rfl | ⟨d, rfl⟩
  · -- `Throwable` itself is the own type of no value.
    cases v <;> cases own
  · exact (instance_of_refType own).imp (fun ⟨o, same, _⟩ => ⟨o, same⟩)
      fun ⟨t, same, _⟩ => ⟨t, same⟩

theorem Intrinsic.perform_throwArgument_object (o : ObjectRef) (rest : List Value) (s : State) :
    throwArgument.perform (.object o :: rest) s =
      (.error (.failed (.classCast o.cls.name "Throwable")), s) := by
  have cast : (Value.object o).castFailure .throwable = .classCast o.cls.name "Throwable" := by
    simp [Value.castFailure, Value.refType?, Kind.text, RefType.text]
  unfold perform
  simp only [cast]
  rfl

namespace Handle

/-- An invocation fails, if it may go so many calls deep, and nothing else happens. -/
def FailsAtOnce (h : Handle) (depth : Nat) (args : List Value) (failure : Failure) : Prop :=
  ∀ (host : Host) (n : Nat) (s : State),
    h.invokeExact (runCode host (n + depth)) args s = (.error (.failed failure), s)

namespace FailsAtOnce

variable {h g handler : Handle} {depth : Nat} {exception : RefType} {u u' : HandleTable}

theorem call_eq {failure : Failure} (fails : h.FailsAtOnce depth args failure)
    (conform : Conform args h.signature.params) (host : Host) (n : Nat) (s : State) :
    (runCode host (n + depth)).call h args s = (.error (.failed failure), s) := by
  rw [← h.invokeExact_of_conform _ conform]
  exact fails host n s

/-- A handler of its type gets what a handle throws. -/
theorem caught {t : Throwable} (fails : h.FailsAtOnce depth args (.thrown t))
    (conform : Conform args h.signature.params)
    (made : (Construction.catchException h exception handler).build u = (.ok g, u'))
    (taken : t.refType.isSubtypeOf exception = true) (host : Host) (n : Nat) :
    g.invokeExact (runCode host (n + depth + 1)) args =
      h.signature.ret.kept <$> (runCode host (n + depth)).call handler
        (.throwable t :: args.take (handler.arity - 1)) := by
  have same := Layer.catchException_signature made
  rw [g.invokeExact_of_conform _ (same ▸ conform)]
  funext s
  exact Layer.call_caught made conform.length_eq (fails.call_eq conform host n s) taken

/-- Every other failure of a handle passes the handler. -/
theorem passes {failure : Failure} (fails : h.FailsAtOnce depth args failure)
    (conform : Conform args h.signature.params)
    (made : (Construction.catchException h exception handler).build u = (.ok g, u'))
    (other : ∀ t, failure = .thrown t → t.refType.isSubtypeOf exception = false) :
    g.FailsAtOnce (depth + 1) args failure := by
  intro host n s
  have same := Layer.catchException_signature made
  rw [g.invokeExact_of_conform _ (same ▸ conform)]
  exact Layer.call_passed made conform.length_eq (fails.call_eq conform host n s) other

end FailsAtOnce

/-- What is thrown by a handle that throws is what a handler around it gets. Every non-null instance
of the throwable type is a throwable or an object. A throwable is thrown as it is; a handler runs
once, on this very throwable, if the throwable is of the handler's type, and else the throwable
passes. An object is not thrown, and no handler runs. -/
theorem throwException_delivers {exception : RefType} (throwable : exception.isThrowable = true)
    (ret : Kind) (u : HandleTable) :
    ∃ h u', (Construction.throwException ret exception).build u = (.ok h, u') ∧
      h.signature = ⟨ret, [.ref exception]⟩ ∧
      ∀ v : Value, v ≠ .null → Conform [v] h.signature.params →
        (∃ t, v = .throwable t ∧ h.FailsAtOnce 2 [v] (.thrown t) ∧
          ∀ {type handler g w w'},
            (Construction.catchException h type handler).build w = (.ok g, w') →
            (t.refType.isSubtypeOf type = true → ∀ host n,
              g.invokeExact (runCode host (n + 3)) [v] =
                ret.kept <$> (runCode host (n + 2)).call handler
                  (v :: [v].take (handler.arity - 1))) ∧
            (t.refType.isSubtypeOf type = false → g.FailsAtOnce 3 [v] (.thrown t))) ∨
        ∃ o, v = .object o ∧ h.FailsAtOnce 2 [v] (.classCast o.cls.name "Throwable") ∧
          ∀ {type handler g w w'},
            (Construction.catchException h type handler).build w = (.ok g, w') →
            g.FailsAtOnce 3 [v] (.classCast o.cls.name "Throwable") := by
  let signature : Signature := ⟨ret, [.ref exception]⟩
  let action : Action := .intrinsic .throwArgument
  let blueprint := Blueprint.ofAction signature action
  let h : Handle := ⟨u.adapters.size, signature, blueprint.program, false⟩
  have performs : h.Performs action := rfl
  have built : (Construction.throwException ret exception).build u =
      (.ok h, ⟨u.adapters.push none⟩) := by
    show Build.accept (Blueprint.throwException ret exception) u = _
    rw [Blueprint.throwException_eq throwable]
    rfl
  refine ⟨h, _, built, rfl, fun v present conform => ?_⟩
  have first : v.conforms (.ref exception) = true := (List.forall₂_cons.1 conform).1
  rcases v.instance_of_throwable throwable present first with ⟨o, rfl⟩ | ⟨t, rfl⟩
  · have fails : h.FailsAtOnce 2 [.object o] (.classCast o.cls.name "Throwable") :=
      fun host n s => performs.invokeExact_of_error conform
        (Intrinsic.perform_throwArgument_object o [] s)
    exact .inr ⟨o, rfl, fails, fun made => fails.passes conform made nofun⟩
  · have fails : h.FailsAtOnce 2 [.throwable t] (.thrown t) := fun host n s =>
      performs.invokeExact_of_error conform rfl
    refine .inl ⟨t, rfl, fails, fun made => ⟨?caught, ?passed⟩⟩
    case caught =>
      intro taken host n
      exact fails.caught conform made taken host n
    case passed =>
      intro other
      refine fails.passes conform made fun t' same => ?_
      cases same
      exact other

/-- A handler of the class above gets a throwable of a class below. -/
theorem throwException_delivers_caught :
    let t : Throwable := ⟨0, .late, "over"⟩
    let handler := Handle.ofHost 1 ⟨.int, [.throwable]⟩
    ∃ h g u u', (Construction.throwException .int (.cls .fault)).build .empty = (.ok h, u) ∧
      (Construction.catchException h (.cls .timeout) handler).build u = (.ok g, u') ∧
      Conform [.throwable t] h.signature.params ∧ h.FailsAtOnce 2 [.throwable t] (.thrown t) ∧
      g.invokeExact (runCode .numbering 3) [.throwable t] =
        Kind.int.kept <$> (runCode .numbering 2).call handler [.throwable t] ∧
      (g.invokeExact (runCode .numbering 3) [.throwable t] .empty).1 = .ok (.int 1) := by
  intro t handler
  obtain ⟨h, u, built, signature, values⟩ :=
    @throwException_delivers (.cls .fault) (by decide) .int .empty
  have conform : Conform [.throwable t] h.signature.params := by
    rw [signature]
    exact .cons (by decide) .nil
  obtain ⟨_, ⟨⟩, fails, catches⟩ | ⟨o, other, -⟩ := values (.throwable t) nofun conform
  · cases built
    obtain ⟨caught, -⟩ := @catches (.cls .timeout) handler _ _ _ rfl
    exact ⟨_, _, _, _, rfl, rfl, conform, fails, caught (by decide) .numbering 0, rfl⟩
  · cases other

/-- An object that a constructor makes of a throwable class is refused, not thrown, and the handler
does not run. -/
theorem throwException_delivers_object :
    let v : Value := .object ⟨0, .late⟩
    ∃ k h g u u', Handle.FoundOver .faults (.constructor "Late" []) k ∧
      k.invokeExact (runCode .numbering 2) [] .faults = (.ok v, State.faults.withObject []) ∧
      (Construction.throwException .int (.cls .fault)).build .empty = (.ok h, u) ∧
      (Construction.catchException h (.cls .timeout)
        (.ofHost 1 ⟨.int, [.throwable]⟩)).build u = (.ok g, u') ∧
      Conform [v] h.signature.params ∧
      h.invokeExact (runCode .numbering 2) [v] (State.faults.withObject []) =
        (.error (.failed (.classCast "Late" "Throwable")), State.faults.withObject []) ∧
      g.invokeExact (runCode .numbering 3) [v] (State.faults.withObject []) =
        (.error (.failed (.classCast "Late" "Throwable")), State.faults.withObject []) := by
  intro v
  exact ⟨_, _, _, _, _, .faults rfl, rfl, rfl, rfl, .cons (by decide) .nil, rfl, rfl⟩

end Handle

end TypedHandles
