import TypedHandles.Proofs.Adapting
import TypedHandles.Proofs.History

/-!
Loose calls of handles of variable arity. Such a call either passes its last argument as the array,
or collects all trailing arguments into a fresh one. Which of the two it does is decided by the kind
of the last argument: one trailing argument is passed whenever its kind converts to the array's.

For `null` and for arrays of the kind that is right, but kinds convert long before values do. A
single argument of such a kind that is no array is neither passed nor collected: the call fails.
-/
namespace TypedHandles

/-- Runs code on arguments, or halts. -/
def Runner.launch (run : Runner) : Except Halt (Code × List Value) → Exec Value
  | .ok (code, args) => run code args
  | .error halt => throw halt

/-- From a state two computations run the same code on the same arguments, or halt alike. Ahead of
that each may make handles of its own, and it does nothing else. -/
def Exec.SameRun (run : Runner) (s : State) (x y : Exec Value) : Prop :=
  ∃ start handles handles', x s = run.launch start { s with handles := handles } ∧
    y s = run.launch start { s with handles := handles' }

namespace Handle

/-- The trailing arguments are the array itself. -/
def PassesArray (element : Kind) (trailing : List Value) : Prop :=
  ∃ v, trailing = [v] ∧ v.conforms (.arrayOf element) = true

/-- The trailing arguments are taken for the array because of their kind, but they are not. -/
def MistakenForArray (element : Kind) (trailing : List Value) : Prop :=
  ∃ v, trailing = [v] ∧ v.conforms (.arrayOf element) = false ∧
    v.kind.isConvertibleTo (.arrayOf element) = true

/-- A loose call that collects: the arguments are converted in order, those in front to the leading
parameters and the others to the element kind, and the handle is called on the former and a fresh
array of the latter. -/
def collecting (run : Runner) (h : Handle) (leading : List Kind) (element : Kind)
    (front trailing : List Value) : Exec Value := do
  let own ← Exec.ofExcept
    (Signature.make h.signature.ret (leading ++ List.replicate trailing.length element))
  let caller := h.callerOf (front ++ trailing)
  if own.isConvertibleTo caller then
    let passed ← Exec.ofExcept (Value.convertEach (front.zip leading))
    let items ← Exec.ofExcept (Value.convertEach (trailing.map fun v => (v, element)))
    let result ← run.call h (passed ++ [.array element items])
    return h.signature.ret.kept result
  else Exec.refuse (.signatureMismatch caller own)

/-- A loose call that takes its last argument for the array: it fails at the latest when that
argument is cast to an array. -/
def casting (h : Handle) (leading : List Kind) (element : Kind) (front : List Value) (v : Value) :
    Exec Value := do
  let caller := h.callerOf (front ++ [v])
  if h.signature.isConvertibleTo caller then
    let _ ← Exec.ofExcept (Value.convertEach (front.zip leading))
    Exec.refuse (v.castFailure (.arrayOf element))
  else Exec.refuse (.signatureMismatch caller h.signature)

/-- A loose call of the handle of fixed arity that a handle becomes. -/
def invokeFixed (run : Runner) (h : Handle) (args : List Value) : Exec Value := do
  let fixed ← Exec.ofBuild h.asFixedArity
  fixed.invoke run args

/-- A loose call of a collector of that handle. -/
def invokeCollector (run : Runner) (h : Handle) (array : Kind) (count : Nat) (args : List Value) :
    Exec Value := do
  let fixed ← Exec.ofBuild h.asFixedArity
  let collector ← Exec.ofBuild (Construction.asCollector fixed array count).build
  collector.invoke run args

variable {run : Runner} {h : Handle} {leading : List Kind} {element : Kind}
  {args front trailing : List Value} {s : State}

/-! What the kind of the last argument says. -/

theorem isConvertibleTo_of_conforms_array {v : Value}
    (conforms : v.conforms (.arrayOf element) = true) :
    v.kind.isConvertibleTo (.arrayOf element) = true := by
  rcases v.kind_cases with rfl | rfl | ⟨p, prim, kind⟩ | ⟨t, -, type, kind⟩
  · cases conforms
  · simp [Value.kind, Kind.isConvertibleTo, Kind.arrayOf, RefType.isRelatedTo,
      RefType.isSubtypeOf_object]
  · rw [Kind.arrayOf, Value.conforms_ref_of_prim? prim] at conforms
    cases conforms
  · rw [Kind.arrayOf, Value.conforms_of_refType? type] at conforms
    rw [kind]
    simp [Kind.isConvertibleTo, Kind.arrayOf, RefType.isRelatedTo, conforms]

/-- A value of a kind that converts to an array's is cast. -/
theorem convert_array_of_mistaken {v : Value} (nonVoid : v ≠ .void)
    (outside : v.conforms (.arrayOf element) = false)
    (convertible : v.kind.isConvertibleTo (.arrayOf element) = true) :
    v.convert v.kind (.arrayOf element) = .error (v.castFailure (.arrayOf element)) := by
  have differ : (v.kind == .arrayOf element) = false := by
    rw [← Bool.not_eq_true]
    intro same
    rw [Value.conforms_of_kind_beq nonVoid same] at outside
    cases outside
  rcases v.kind_cases with rfl | rfl | ⟨p, -, kind⟩ | ⟨t, -, type, kind⟩
  · exact absurd rfl nonVoid
  · cases outside
  · rw [kind] at convertible
    cases convertible
  · rw [kind] at differ ⊢
    exact (Value.convert_ref v differ).trans (Value.checkCast_of_not_conforms outside)

/-! The count of what is collected. -/

theorem collectedCount_eq (collects : h.variableArity = true)
    (params : h.signature.params = leading ++ [.arrayOf element]) (caller : Signature) :
    h.collectedCount caller =
      if caller.arity == leading.length + 1 &&
          (caller.params[leading.length]?.map (·.isConvertibleTo (.arrayOf element))).getD
            false then
        .ok none
      else if caller.arity < leading.length then
        .error (.failed (.wrongArgumentCount leading.length caller.arity))
      else .ok (some (caller.arity - leading.length)) := by
  have last : h.arity - 1 = leading.length := by simp [arity, params]
  have arity : h.arity = leading.length + 1 := by simp [Handle.arity, params]
  have array : Checked.ofOption h.signature.params[leading.length]? = .ok (.arrayOf element) := by
    rw [params, List.getElem?_concat_length]
    rfl
  unfold collectedCount
  simp only [collects, last, array]
  rw [arity]
  rfl

theorem collectedCount_of_few (collects : h.variableArity = true)
    (params : h.signature.params = leading ++ [.arrayOf element])
    (few : args.length < leading.length) :
    h.collectedCount (h.callerOf args) =
      .error (.failed (.wrongArgumentCount leading.length args.length)) := by
  have arity : (h.callerOf args).arity = args.length := by simp [callerOf, Signature.arity]
  have differ : ¬ args.length = leading.length + 1 := by omega
  rw [collectedCount_eq collects params, arity]
  simp [differ, few]

theorem collectedCount_of_convertible (collects : h.variableArity = true)
    (params : h.signature.params = leading ++ [.arrayOf element])
    (lengths : front.length = leading.length) {v : Value}
    (convertible : v.kind.isConvertibleTo (.arrayOf element) = true) :
    h.collectedCount (h.callerOf (front ++ [v])) = .ok none := by
  rw [collectedCount_eq collects params]
  simp [callerOf, Signature.arity, lengths, convertible]

theorem collectedCount_of_not_convertible (collects : h.variableArity = true)
    (params : h.signature.params = leading ++ [.arrayOf element])
    (lengths : front.length = leading.length)
    (differ : ∀ v, trailing = [v] → v.kind.isConvertibleTo (.arrayOf element) = false) :
    h.collectedCount (h.callerOf (front ++ trailing)) = .ok (some trailing.length) := by
  have arity : (h.callerOf (front ++ trailing)).arity = leading.length + trailing.length := by
    simp [callerOf, Signature.arity, lengths]
  have enough : ¬ leading.length + trailing.length < leading.length := by omega
  rw [collectedCount_eq collects params, arity, if_neg enough, Nat.add_sub_cancel_left]
  refine if_neg fun passes => ?_
  obtain ⟨one, convertible⟩ := Bool.and_eq_true_iff.1 passes
  obtain ⟨v, rfl⟩ := List.length_eq_one_iff.1 (Nat.add_left_cancel (beq_iff_eq.1 one))
  have found : (h.callerOf (front ++ [v])).params[leading.length]? = some v.kind := by
    simp [callerOf, ← lengths]
  rw [found, Option.map_some, Option.getD_some, differ v rfl] at convertible
  cases convertible

/-! The handles that are made on the way. -/

/-- The handle of fixed arity for a handle, under a number. -/
def fixedUnder (h : Handle) (id : Nat) : Handle := ⟨id, h.signature, h.program, false⟩

theorem ofBuild_asFixedArity (collects : h.variableArity = true) (s : State) :
    Exec.ofBuild h.asFixedArity s = (.ok (h.fixedUnder s.handles.adapters.size),
      { s with handles := ⟨s.handles.adapters.push none⟩ }) := by
  refine ofBuild_eq ?_
  unfold asFixedArity
  rw [if_pos collects]
  rfl

theorem allocate_collector (params : h.signature.params = leading ++ [.arrayOf element])
    {count : Nat} (limit : leading.length + count ≤ Signature.maxArity) (t : HandleTable) :
    Build.allocate (Blueprint.collector h (.arrayOf element) count) t =
      match Signature.make h.signature.ret (leading ++ List.replicate count element) with
      | .ok own => (.ok ⟨t.adapters.size, own, gathering h leading.length element count, false⟩,
          ⟨t.adapters.push none⟩)
      | .error failure => (.error (.failed failure), t) := by
  rw [Blueprint.collector_eq params limit]
  cases Signature.make h.signature.ret (leading ++ List.replicate count element) <;> rfl

/-! Passing the array. -/

theorem loosely_eq_launch : h.loosely run args = run.launch
    (if h.signature.isConvertibleTo (h.callerOf args) then .ok (h.codeFor (h.callerOf args), args)
      else .error (.failed (.signatureMismatch (h.callerOf args) h.signature))) := by
  unfold loosely
  split <;> rfl

/-- Loose calls that come to the same are the same run. -/
theorem sameRun_of_loosely {g : Handle} {x y : Exec Value}
    (first : ∃ handles, x s = h.loosely run args { s with handles := handles })
    (second : ∃ handles, y s = g.loosely run args { s with handles := handles })
    (same : g.loosely run args = h.loosely run args) : Exec.SameRun run s x y := by
  obtain ⟨handles, first⟩ := first
  obtain ⟨handles', second⟩ := second
  rw [same] at second
  rw [loosely_eq_launch] at first second
  exact ⟨_, handles, handles', first, second⟩

/-- A call whose last argument is of a kind that converts to the array's is an adapted call. -/
theorem invoke_of_convertible (run : Runner) (collects : h.variableArity = true)
    (params : h.signature.params = leading ++ [.arrayOf element])
    (lengths : front.length = leading.length) {v : Value}
    (convertible : v.kind.isConvertibleTo (.arrayOf element) = true)
    (nonVoid : ∀ w ∈ front ++ [v], w ≠ .void)
    (limit : (front ++ [v]).length ≤ Signature.maxArity)
    (recalls : s.handles.Recalls h (h.callerOf (front ++ [v]))) :
    ∃ handles, h.invoke run (front ++ [v]) s =
      h.loosely run (front ++ [v]) { s with handles := handles } := by
  have asked : h.adaptedTo (h.callerOf (front ++ [v])) s.handles =
      h.asType (h.callerOf (front ++ [v])) s.handles := by
    unfold adaptedTo
    rw [collectedCount_of_convertible collects params lengths convertible]
    rfl
  rw [invoke_eq (.inl collects) nonVoid limit]
  exact ⟨_, asType_invokeExact asked recalls nonVoid⟩

/-- Such a call is the same as one of the handle of fixed arity. -/
theorem sameRun_invokeFixed {host : Host} (n : Nat) (collects : h.variableArity = true)
    (params : h.signature.params = leading ++ [.arrayOf element])
    (lengths : front.length = leading.length) {v : Value}
    (convertible : v.kind.isConvertibleTo (.arrayOf element) = true)
    (nonVoid : ∀ w ∈ front ++ [v], w ≠ .void)
    (limit : (front ++ [v]).length ≤ Signature.maxArity)
    (recalls : s.handles.Recalls h (h.callerOf (front ++ [v]))) :
    Exec.SameRun (runCode host n) s (h.invoke (runCode host n) (front ++ [v]))
      (h.invokeFixed (runCode host n) (front ++ [v])) := by
  have arity : (front ++ [v]).length = h.arity := by simp [Handle.arity, params, lengths]
  let fixed := h.fixedUnder s.handles.adapters.size
  have built := ofBuild_asFixedArity collects s
  have same : fixed.loosely (runCode host n) (front ++ [v]) =
      h.loosely (runCode host n) (front ++ [v]) :=
    loosely_congr (g := fixed) (h := h) rfl (fun _ _ _ => rfl) arity n
  refine sameRun_of_loosely
    (invoke_of_convertible _ collects params lengths convertible nonVoid limit recalls) ?_ same
  unfold invokeFixed
  rw [bind_of_ok built]
  exact ⟨_, invoke_of_fixed rfl arity nonVoid limit (s.handles.recalls_new _ _ _ _)⟩

/-! Collecting. -/

/-- The arguments of a collector are converted to the leading kinds and to the element kind. -/
theorem convertEach_split (lengths : front.length = leading.length) :
    Value.convertEach
        ((front ++ trailing).zip (leading ++ List.replicate trailing.length element)) = (do
      let passed ← Value.convertEach (front.zip leading)
      let items ← Value.convertEach (trailing.map fun v => (v, element))
      return passed ++ items) := by
  rw [List.zip_append lengths, List.map_prod_left_eq_zip, List.map_const']
  exact List.mapM_append

/-- The collector of a handle, under a number. -/
def collectorOf (h : Handle) (leading : List Kind) (element : Kind) (count id : Nat) : Handle :=
  ⟨id, ⟨h.signature.ret, leading ++ List.replicate count element⟩,
    gathering h leading.length element count, false⟩

/-- A computation that calls a collector of a handle loosely, if there is such a collector. -/
def CallsCollector (run : Runner) (h : Handle) (leading : List Kind) (element : Kind)
    (front trailing : List Value) (s : State) (x : Exec Value) : Prop :=
  match Signature.make h.signature.ret (leading ++ List.replicate trailing.length element) with
  | .ok _ => ∃ id handles, x s =
      (h.collectorOf leading element trailing.length id).loosely run (front ++ trailing)
        { s with handles := handles }
  | .error failure => ∃ handles, x s = (.error (.failed failure), { s with handles := handles })

variable {host : Host}

theorem collectorOf_arity (h : Handle) (element : Kind) (id : Nat)
    (lengths : front.length = leading.length) :
    (front ++ trailing).length = (h.collectorOf leading element trailing.length id).arity := by
  simp [Handle.arity, collectorOf, lengths]

/-- A collector calls its handle on a fresh array of the arguments that it collects. -/
theorem call_collectorOf {count : Nat} {values : List Value}
    (lengths : values.length = leading.length + count) (id m : Nat) :
    (runCode host (m + 1)).call (h.collectorOf leading element count id) values = (do
      let result ← (runCode host m).call h
        (values.take leading.length ++ [.array element (values.drop leading.length)])
      return h.signature.ret.kept result) :=
  Blueprint.gathering_perform lengths

/-- What follows the conversions is only done with arguments of the right number. -/
theorem converted_congr (lengths : front.length = leading.length)
    {x : List Value → Exec Value} {y : List Value → List Value → Exec Value}
    (same : ∀ passed items : List Value, passed.length = leading.length →
      items.length = trailing.length → x (passed ++ items) = y passed items) :
    (do
      let values ← Exec.ofExcept (Value.convertEach
        ((front ++ trailing).zip (leading ++ List.replicate trailing.length element)))
      x values) = (do
      let passed ← Exec.ofExcept (Value.convertEach (front.zip leading))
      let items ← Exec.ofExcept (Value.convertEach (trailing.map fun v => (v, element)))
      y passed items) := by
  rw [convertEach_split lengths]
  cases first : Value.convertEach (front.zip leading) with
  | error failure => rfl
  | ok passed =>
    cases second : Value.convertEach (trailing.map fun v => (v, element)) with
    | error failure => rfl
    | ok items =>
      refine same passed items ?_ ?_
      · rw [(Value.convertEach_ends _).of_eq_ok first, List.length_zip, lengths, Nat.min_self]
      · rw [(Value.convertEach_ends _).of_eq_ok second, List.length_map]

/-- Code that serves a call of a collector converts, and calls the handle on a fresh array. -/
theorem runCode_codeFor_collectorOf (h : Handle) (element : Kind) (host : Host) (id n : Nat)
    (lengths : front.length = leading.length)
    (nonVoid : ∀ v ∈ front ++ trailing, v ≠ .void) :
    ∃ m, n ≤ m ∧ m ≤ n + 1 ∧
      runCode host (n + 2) ((h.collectorOf leading element trailing.length id).codeFor
          (h.callerOf (front ++ trailing))) (front ++ trailing) = (do
        let passed ← Exec.ofExcept (Value.convertEach (front.zip leading))
        let items ← Exec.ofExcept (Value.convertEach (trailing.map fun v => (v, element)))
        let result ← (runCode host m).call h (passed ++ [.array element items])
        return h.signature.ret.kept result) := by
  let c := h.collectorOf leading element trailing.length id
  have arity : (front ++ trailing).length = c.arity := collectorOf_arity h element id lengths
  have called : ∀ (m : Nat) (passed items : List Value), passed.length = leading.length →
      items.length = trailing.length → (runCode host (m + 1)).call c (passed ++ items) = (do
        let result ← (runCode host m).call h (passed ++ [.array element items])
        return h.signature.ret.kept result) := by
    intro m passed items fits counted
    have both : (passed ++ items).length = leading.length + trailing.length := by
      rw [List.length_append, fits, counted]
    rw [call_collectorOf both, List.take_left' fits, List.drop_left' fits]
  cases asIs : c.servesAsIs (c.callerOf (front ++ trailing)) with
  | true =>
    refine ⟨n + 1, Nat.le_succ n, Nat.le_refl _, ?_⟩
    refine (runCode_codeFor_of_servesAsIs arity (n + 1) nonVoid asIs).trans ?_
    exact converted_congr lengths (called (n + 1))
  | false =>
    refine ⟨n, Nat.le_refl n, Nat.le_succ n, ?_⟩
    refine (runCode_codeFor_of_not_servesAsIs arity (n + 1) asIs).trans ?_
    refine converted_congr lengths fun passed items fits counted => ?_
    rw [called n passed items fits counted]
    simp only [bind_assoc, pure_bind]
    exact congrArg _ (funext fun result => congrArg _ (Kind.kept_kept _ result))

/-- A loose call of a collector converts, and calls its handle on a fresh array. -/
theorem CallsCollector.eq_collecting {x : Exec Value} {n : Nat}
    (calls : CallsCollector (runCode host (n + 2)) h leading element front trailing s x)
    (lengths : front.length = leading.length) (nonVoid : ∀ v ∈ front ++ trailing, v ≠ .void) :
    ∃ m handles, n ≤ m ∧ m ≤ n + 1 ∧ x s =
      h.collecting (runCode host m) leading element front trailing
        { s with handles := handles } := by
  unfold CallsCollector at calls
  unfold collecting
  cases made : Signature.make h.signature.ret
      (leading ++ List.replicate trailing.length element) with
  | error failure =>
    rw [made] at calls
    obtain ⟨handles, calls⟩ := calls
    exact ⟨n, handles, Nat.le_refl n, Nat.le_succ n, calls⟩
  | ok own =>
    rw [made] at calls
    obtain ⟨id, handles, calls⟩ := calls
    obtain ⟨m, low, high, served⟩ :=
      runCode_codeFor_collectorOf h element host id n lengths nonVoid
    refine ⟨m, handles, low, high, calls.trans ?_⟩
    unfold loosely
    rw [(Signature.make_eq_ok_iff.1 made).1,
      show callerOf (h.collectorOf leading element trailing.length id) _ =
        h.callerOf (front ++ trailing) from rfl, served]
    rfl

/-- Calls of collectors of handles that share signature and program are the same run. -/
theorem CallsCollector.sameRun {g : Handle} {x y : Exec Value} {n : Nat}
    (first : CallsCollector (runCode host n) h leading element front trailing s x)
    (second : CallsCollector (runCode host n) g leading element front trailing s y)
    (signature : g.signature = h.signature) (program : g.program = h.program)
    (lengths : front.length = leading.length) : Exec.SameRun (runCode host n) s x y := by
  unfold CallsCollector at first second
  rw [signature] at second
  cases made : Signature.make h.signature.ret
      (leading ++ List.replicate trailing.length element) with
  | error failure =>
    rw [made] at first second
    obtain ⟨handles, first⟩ := first
    obtain ⟨handles', second⟩ := second
    exact ⟨.error (.failed failure), handles, handles', first, second⟩
  | ok own =>
    rw [made] at first second
    obtain ⟨id, first⟩ := first
    obtain ⟨id', second⟩ := second
    let c := h.collectorOf leading element trailing.length id
    let d := g.collectorOf leading element trailing.length id'
    have same : ∀ (m : Nat) (values : List Value), values.length = c.arity →
        (runCode host m).call d values = (runCode host m).call c values := by
      intro m values counted
      have counted : values.length = leading.length + trailing.length := by
        simpa [Handle.arity, c, collectorOf] using counted
      cases m with
      | zero => rfl
      | succ m =>
        rw [call_collectorOf counted, call_collectorOf counted, Runner.call, signature, program]
        rfl
    have signatures : d.signature = c.signature := by
      simp only [c, d, collectorOf, signature]
    exact sameRun_of_loosely first second
      (loosely_congr signatures same (collectorOf_arity h element id lengths) n)

/-- A call that collects is adapted through a collector. -/
theorem adaptedTo_of_collected (collects : h.variableArity = true)
    (params : h.signature.params = leading ++ [.arrayOf element])
    (lengths : front.length = leading.length)
    (differ : ∀ v, trailing = [v] → v.kind.isConvertibleTo (.arrayOf element) = false)
    (limit : (front ++ trailing).length ≤ Signature.maxArity) (t : HandleTable) :
    h.adaptedTo (h.callerOf (front ++ trailing)) t =
      match Signature.make h.signature.ret (leading ++ List.replicate trailing.length element) with
      | .ok own =>
        asType ⟨t.adapters.size, own, gathering h leading.length element trailing.length, false⟩
          (h.callerOf (front ++ trailing)) ⟨t.adapters.push none⟩
      | .error failure => (.error (.failed failure), t) := by
  have array : Checked.ofOption h.signature.params[h.arity - 1]? = .ok (.arrayOf element) := by
    have last : h.arity - 1 = leading.length := by simp [arity, params]
    rw [last, params, List.getElem?_concat_length]
    rfl
  have limit : leading.length + trailing.length ≤ Signature.maxArity := by
    rwa [List.length_append, lengths] at limit
  have allocated := allocate_collector params limit t
  unfold adaptedTo
  rw [collectedCount_of_not_convertible collects params lengths differ, array]
  show (Build.allocate (Blueprint.collector h (.arrayOf element) trailing.length) >>= fun c =>
    c.asType (h.callerOf (front ++ trailing))) t = _
  cases made : Signature.make h.signature.ret
      (leading ++ List.replicate trailing.length element) with
  | ok own =>
    rw [made] at allocated
    exact bind_of_ok allocated
  | error failure =>
    rw [made] at allocated
    exact bind_of_error allocated

/-- A loose call that collects calls a collector of the handle. -/
theorem invoke_callsCollector (run : Runner) (s : State) (collects : h.variableArity = true)
    (params : h.signature.params = leading ++ [.arrayOf element])
    (lengths : front.length = leading.length)
    (differ : ∀ v, trailing = [v] → v.kind.isConvertibleTo (.arrayOf element) = false)
    (nonVoid : ∀ v ∈ front ++ trailing, v ≠ .void)
    (limit : (front ++ trailing).length ≤ Signature.maxArity) :
    CallsCollector run h leading element front trailing s (h.invoke run (front ++ trailing)) := by
  have asked := adaptedTo_of_collected collects params lengths differ limit s.handles
  unfold CallsCollector
  rw [invoke_eq (.inl collects) nonVoid limit]
  cases made : Signature.make h.signature.ret
      (leading ++ List.replicate trailing.length element) with
  | ok own =>
    rw [made, (Signature.make_eq_ok_iff.1 made).1] at asked
    exact ⟨_, _, asType_invokeExact (h := h.collectorOf leading element _ _) asked
      (s.handles.recalls_new _ _ _ _) nonVoid⟩
  | error failure =>
    rw [made] at asked
    exact ⟨s.handles, bind_of_error (ofBuild_eq asked)⟩

/-- A loose call of a collector of the handle of fixed arity is one. -/
theorem invokeCollector_callsCollector (run : Runner) (s : State)
    (collects : h.variableArity = true)
    (params : h.signature.params = leading ++ [.arrayOf element])
    (lengths : front.length = leading.length) (nonVoid : ∀ v ∈ front ++ trailing, v ≠ .void)
    (limit : (front ++ trailing).length ≤ Signature.maxArity) :
    CallsCollector run (h.fixedUnder s.handles.adapters.size) leading element front trailing s
      (h.invokeCollector run (.arrayOf element) trailing.length (front ++ trailing)) := by
  let fixed := h.fixedUnder s.handles.adapters.size
  let t : HandleTable := ⟨s.handles.adapters.push none⟩
  have built := ofBuild_asFixedArity collects s
  have allocated := allocate_collector (h := fixed) params
    (by rwa [List.length_append, lengths] at limit) t
  unfold CallsCollector invokeCollector
  rw [bind_of_ok built]
  cases made : Signature.make fixed.signature.ret
      (leading ++ List.replicate trailing.length element) with
  | error failure =>
    rw [made] at allocated
    exact ⟨t, bind_of_error (ofBuild_eq allocated)⟩
  | ok own =>
    rw [made, (Signature.make_eq_ok_iff.1 made).1] at allocated
    let c := fixed.collectorOf leading element trailing.length t.adapters.size
    refine ⟨t.adapters.size, ?_⟩
    rw [bind_of_ok (ofBuild_eq allocated)]
    exact ⟨_, invoke_of_fixed (h := c) rfl (collectorOf_arity fixed element _ lengths) nonVoid
      limit (t.recalls_new _ _ _ _)⟩

/-! Taking a value for the array. -/

/-- A value that is taken for the array is cast, and the cast fails. -/
theorem loosely_of_mistaken (n : Nat) (params : h.signature.params = leading ++ [.arrayOf element])
    (lengths : front.length = leading.length) {v : Value} (nonVoid : ∀ w ∈ front ++ [v], w ≠ .void)
    (outside : v.conforms (.arrayOf element) = false)
    (convertible : v.kind.isConvertibleTo (.arrayOf element) = true) :
    h.loosely (runCode host (n + 1)) (front ++ [v]) = h.casting leading element front v := by
  have arity : (front ++ [v]).length = h.arity := by simp [Handle.arity, params, lengths]
  have present : v ≠ .void := nonVoid v (by simp)
  have converts : h.servesAsIs (h.callerOf (front ++ [v])) = false := by
    rw [← Bool.not_eq_true]
    intro asIs
    have kinds := kinds_of_servesAsIs asIs
    rw [params] at kinds
    have last : (v, Kind.arrayOf element) ∈ (front ++ [v]).zip (leading ++ [.arrayOf element]) := by
      simp [List.zip_append lengths]
    have viewable := (List.forall₂_iff_zip.1 kinds).2 last
    rw [Value.conforms_of_kind_isViewableAs present viewable] at outside
    cases outside
  have failed : Value.convertEach [(v, .arrayOf element)] =
      .error (v.castFailure (.arrayOf element)) := by
    rw [Value.convertEach_cons, convert_array_of_mistaken present outside convertible]
    rfl
  have split : Value.convertEach ((front ++ [v]).zip h.signature.params) = (do
      let passed ← Value.convertEach (front.zip leading)
      let items ← Value.convertEach [(v, .arrayOf element)]
      return passed ++ items) := by
    rw [params, List.zip_append lengths]
    exact List.mapM_append
  have served : runCode host (n + 1) (h.codeFor (h.callerOf (front ++ [v]))) (front ++ [v]) = _ :=
    runCode_codeFor arity n
  rw [split, failed, if_neg (by rw [converts]; exact Bool.false_ne_true)] at served
  unfold loosely casting
  rw [served]
  cases Value.convertEach (front.zip leading) <;> rfl

/-- Too few arguments are refused before anything is made. -/
theorem invoke_of_few (run : Runner) (s : State) (collects : h.variableArity = true)
    (params : h.signature.params = leading ++ [.arrayOf element])
    (few : args.length < leading.length) (nonVoid : ∀ v ∈ args, v ≠ .void)
    (limit : args.length ≤ Signature.maxArity) :
    h.invoke run args s =
      (.error (.failed (.wrongArgumentCount leading.length args.length)), s) := by
  have refused : h.adaptedTo (h.callerOf args) s.handles =
      (.error (.failed (.wrongArgumentCount leading.length args.length)), s.handles) := by
    unfold adaptedTo
    rw [collectedCount_of_few collects params few]
    rfl
  rw [invoke_eq (.inl collects) nonVoid limit]
  exact bind_of_error (ofBuild_eq refused)

/-- Loose calls of a handle of variable arity. One trailing argument that is `null` or an array of
the right kind is passed as the array; all others are collected, into a fresh array of what they
convert to. The exception is one trailing argument that only its kind makes look like the array:
it is cast to an array, so the call fails and runs nothing, where a collector would go on. -/
theorem invoke_variableArity (collects : h.variableArity = true)
    (params : h.signature.params = leading ++ [.arrayOf element])
    (lengths : front.length = leading.length)
    (nonVoid : ∀ v ∈ front ++ trailing, v ≠ .void)
    (limit : (front ++ trailing).length ≤ Signature.maxArity)
    (recalls : s.handles.Recalls h (h.callerOf (front ++ trailing))) (host : Host) (n : Nat) :
    let run := runCode host (n + 2)
    let args := front ++ trailing
    let collector := h.invokeCollector run (.arrayOf element) trailing.length args
    let collected (x : Exec Value) := ∃ m handles, n ≤ m ∧ m ≤ n + 1 ∧ x s =
      h.collecting (runCode host m) leading element front trailing { s with handles := handles }
    (PassesArray element trailing →
      Exec.SameRun run s (h.invoke run args) (h.invokeFixed run args)) ∧
    (¬ PassesArray element trailing → ¬ MistakenForArray element trailing →
      Exec.SameRun run s (h.invoke run args) collector ∧ collected (h.invoke run args)) ∧
    (MistakenForArray element trailing →
      Exec.SameRun run s (h.invoke run args) (h.invokeFixed run args) ∧
      (∃ v handles, trailing = [v] ∧ h.invoke run args s =
        h.casting leading element front v { s with handles := handles }) ∧
      collected collector) ∧
    ∀ few : List Value, few.length < leading.length → (∀ v ∈ few, v ≠ .void) →
      h.invoke run few s =
        (.error (.failed (.wrongArgumentCount leading.length few.length)), s) := by
  intro run args collector collected
  have made : CallsCollector run (h.fixedUnder s.handles.adapters.size) leading element front
      trailing s collector :=
    invokeCollector_callsCollector run s collects params lengths nonVoid limit
  refine ⟨?passed, ?collected, ?mistaken, ?few⟩
  case passed =>
    rintro ⟨v, rfl, conforms⟩
    exact sameRun_invokeFixed (n + 2) collects params lengths
      (isConvertibleTo_of_conforms_array conforms) nonVoid limit recalls
  case collected =>
    intro notPassed notMistaken
    have differ : ∀ v, trailing = [v] → v.kind.isConvertibleTo (.arrayOf element) = false := by
      intro v one
      rw [← Bool.not_eq_true]
      intro convertible
      cases conforms : v.conforms (.arrayOf element) with
      | true => exact notPassed ⟨v, one, conforms⟩
      | false => exact notMistaken ⟨v, one, conforms, convertible⟩
    have calls : CallsCollector run h leading element front trailing s (h.invoke run args) :=
      invoke_callsCollector run s collects params lengths differ nonVoid limit
    exact ⟨calls.sameRun made rfl rfl lengths, calls.eq_collecting lengths nonVoid⟩
  case mistaken =>
    intro mistaken
    refine ⟨?_, ?_, made.eq_collecting lengths nonVoid⟩
    · obtain ⟨v, rfl, -, convertible⟩ := mistaken
      exact sameRun_invokeFixed (n + 2) collects params lengths convertible nonVoid limit recalls
    · obtain ⟨v, rfl, outside, convertible⟩ := mistaken
      obtain ⟨handles, invoked⟩ :=
        invoke_of_convertible run collects params lengths convertible nonVoid limit recalls
      refine ⟨v, handles, rfl, invoked.trans ?_⟩
      rw [loosely_of_mistaken (n + 1) params lengths nonVoid outside convertible]
  case few =>
    intro few short nonVoid
    refine invoke_of_few run s collects params short nonVoid ?_
    rw [List.length_append, lengths] at limit
    omega

end Handle

/-- Every state that is reached recalls what it should of the handles at hand. -/
theorem Reached.recalls {F : ClassLibrary} {values args : List Value} {s : State} {h : Handle}
    (reached : Reached F values s) (known : Among values (.handle h))
    (made : ∀ v ∈ args, v.MadeOf F (Among values)) (nonVoid : ∀ v ∈ args, v ≠ .void)
    (limit : args.length ≤ Signature.maxArity) : s.handles.Recalls h (h.callerOf args) := by
  obtain ⟨K, sound, valuesMade⟩ := reached.sound
  have grows := Among.grows valuesMade
  have typed := sound.knowledge.handle h (grows _ known)
  have caller := (Signature.ofValues_ends h.signature.ret args).of_eq_ok
    (Handle.ofValues_eq _ nonVoid limit)
  exact sound.handles.recalls sound.knowledge (grows _ known)
    (caller.2 F K sound.knowledge typed.valid.ret_over (forall_madeOf_mono grows made))

/-- A host whose functions return their first argument. -/
def Host.echo : Host := fun _ args => .value (args.headD .null)

namespace Handle

theorem invoke_variableArity_twoNumbers :
    ∃ (values : List Value) (s : State) (h : Handle), Reached .builtin values s ∧
      Among values (.handle h) ∧ h.variableArity = true ∧
      Exec.SameRun (runCode .echo 3) s (h.invoke (runCode .echo 3) [.int 1, .int 2])
        (h.invokeCollector (runCode .echo 3) (.arrayOf .int) 2 [.int 1, .int 2]) ∧
      (h.invoke (runCode .echo 3) [.int 1, .int 2] s).1 =
        .ok (.array .int [.int 1, .int 2]) := by
  have given : (Kind.arrayOf .int).Over ClassLibrary.builtin.Has := by simp [Kind.arrayOf]
  have valid : Signature.Valid ClassLibrary.builtin.Has ⟨.arrayOf .int, [.arrayOf .int]⟩ :=
    ⟨⟨by decide, by simp [Kind.arrayOf]⟩, given, by simpa using given⟩
  have idle := Host.idle_uses .builtin
  have body := Reached.start.perform
    (.construct (.ofAction ⟨.arrayOf .int, [.arrayOf .int]⟩ (.host ⟨0, "echo"⟩))) 1 (idle _)
    ⟨valid, trivial⟩
  have collector := body.perform (.construct (.asVariableArity _ (.arrayOf .int))) 1 (idle _)
    ⟨Among.last rfl, given⟩
  have plain : ∀ v ∈ [Value.int 1, .int 2], v.isPlain = true := by simp [Value.isPlain]
  have nonVoid : ∀ v ∈ [Value.int 1, .int 2], v ≠ .void := by simp
  have recalls := collector.recalls (Among.last rfl) (fun v mem => .plain (plain v mem)) nonVoid
    (by decide)
  have empty : ([] : List Value).length = ([] : List Kind).length := rfl
  obtain ⟨-, collects, -⟩ :=
    invoke_variableArity rfl rfl empty nonVoid (by decide) recalls .echo 1
  have several : ¬ PassesArray .int [.int 1, .int 2] := by
    rintro ⟨v, one, -⟩
    cases one
  have distinct : ¬ MistakenForArray .int [.int 1, .int 2] := by
    rintro ⟨v, one, -⟩
    cases one
  exact ⟨_, _, _, collector, Among.last rfl, rfl, (collects several distinct).1, rfl⟩

/-- A text is not collected into an array of texts, though a collector would. -/
theorem invoke_variableArity_oneText :
    ∃ (s : State) (h : Handle), h.variableArity = true ∧
      h.signature.params = [.arrayOf (.ref .string)] ∧
      ¬ PassesArray (.ref .string) [.str "a"] ∧
      (h.invoke (runCode .echo 3) [.str "a"] s).1 =
        .error (.failed (.classCast "String" "String[]")) ∧
      (h.invokeCollector (runCode .echo 3) (.arrayOf (.ref .string)) 1 [.str "a"] s).1 =
        .ok (.array (.ref .string) [.str "a"]) := by
  let signature : Signature := ⟨.arrayOf (.ref .string), [.arrayOf (.ref .string)]⟩
  refine ⟨.empty, ⟨0, signature, (Blueprint.ofAction signature (.host ⟨0, "echo"⟩)).program, true⟩,
    rfl, rfl, ?_, rfl, rfl⟩
  rintro ⟨v, one, conforms⟩
  cases one
  cases conforms

end Handle
end TypedHandles
