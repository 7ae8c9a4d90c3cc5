import TypedHandles.Kind

/-!
The two written forms of a signature: the arrow form that messages and listings show, and the
compact descriptor.
-/
namespace TypedHandles
namespace Signature

/-- The arrow form, such as `(int, String) -> long`. -/
def text (s : Signature) : String :=
  "(" ++ ", ".intercalate (s.params.map Kind.text) ++ ") -> " ++ s.ret.text

/-- The compact form, such as `(int,String)long`. -/
def descriptor (s : Signature) : String :=
  "(" ++ ",".intercalate (s.params.map Kind.text) ++ ")" ++ s.ret.text

/-- The form that names the notion as well, such as `Signature(int,String)long`. -/
def label (s : Signature) : String := "Signature" ++ s.descriptor

end Signature

instance : ToString Signature := ⟨Signature.text⟩

end TypedHandles
