import EndpointTypings.Proofs.Descriptor.Shape
import EndpointTypings.Proofs.Json.Place

/-!
# The first violation in a descriptor

Where a value first fails to be a parameter, the parameters of an endpoint or a descriptor, and what
is met there. Each of the three is a record of parts that may be null, so that its violations are
made from those of its parts, by giving what every field has to hold. The readers report exactly
these violations (`Descriptor.reports_read` and its two like), and what stands after one does not
count (`Json.isStable_descriptorViolation`).
-/

namespace EndpointTypings

namespace Json

/-- A value that holds no parameter. -/
def ParamFieldViolation : Violation :=
  RecordViolation "ParamField" [.optional "param" IsText TextViolation,
    .optional "type" IsText TextViolation, .optional "required" IsTruth TruthViolation,
    .optional "isNeed" IsTruth TruthViolation]

/-- A value that holds no group of parameters. -/
def GroupViolation : Violation :=
  ListViolation (fun value => ∃ field, IsParamField value field) ParamFieldViolation

/-- A value that does not hold the parameters of an endpoint. -/
def ParamSpecViolation : Violation :=
  RecordViolation "ParamSpec" [.optional "post" (IsList IsParamField) GroupViolation,
    .optional "get" (IsList IsParamField) GroupViolation]

/-- A value that holds no descriptor. -/
def DescriptorViolation : Violation :=
  RecordViolation "EndpointDescriptor" [.optional "apiName" IsText TextViolation,
    .optional "desc" IsText TextViolation, .optional "params" IsParamSpec ParamSpecViolation,
    .optional "res" IsText TextViolation]

/-- What stands after the first violation in a parameter does not count. -/
theorem isStable_paramFieldViolation : IsStable ParamFieldViolation := by
  refine .record ?_
  simp only [List.forall_mem_cons]
  exact ⟨isStable_textViolation.optional, isStable_textViolation.optional,
    isStable_truthViolation.optional, isStable_truthViolation.optional, nofun⟩

/-- What stands after the first violation in the parameters of an endpoint does not count. -/
theorem isStable_paramSpecViolation : IsStable ParamSpecViolation := by
  refine .record ?_
  simp only [List.forall_mem_cons]
  exact ⟨isStable_paramFieldViolation.list.optional, isStable_paramFieldViolation.list.optional,
    nofun⟩

/-- What stands after the first violation in a descriptor does not count. -/
theorem isStable_descriptorViolation : IsStable DescriptorViolation := by
  refine .record ?_
  simp only [List.forall_mem_cons]
  exact ⟨isStable_textViolation.optional, isStable_textViolation.optional,
    isStable_paramSpecViolation.optional, isStable_textViolation.optional, nofun⟩

end Json

open Json

/-- Parameters are reported. -/
theorem ParamField.reports_read : Reports record.read IsParamField ParamFieldViolation :=
  isSlotted.reports
    (.cons (reports_asString.fills nofun) (.cons (reports_asString.fills nofun)
      (.cons (reports_asBool.fills nofun) (.cons (reports_asBool.fills nofun) .nil))))
    fun hd _ => read_eq_ok_iff hd

/-- The parameters of an endpoint are reported. -/
theorem ParamSpec.reports_read : Reports record.read IsParamSpec ParamSpecViolation :=
  isSlotted.reports
    (.cons (ParamField.reports_read.list.fills nofun)
      (.cons (ParamField.reports_read.list.fills nofun) .nil))
    fun hd _ => read_eq_ok_iff hd

/-- Descriptors are reported. -/
theorem Descriptor.reports_read : Reports record.read IsDescriptor DescriptorViolation :=
  isSlotted.reports
    (.cons (reports_asString.fills nofun) (.cons (reports_asString.fills nofun)
      (.cons (ParamSpec.reports_read.fills fun _ h => nomatch h.form)
        (.cons (reports_asString.fills nofun) .nil))))
    fun hd _ => read_eq_ok_iff hd

end EndpointTypings
