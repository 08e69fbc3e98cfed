import Relavium.Interpolation.References
import Relavium.Shared.Workflow

/-!
# Reference sites

The walk of `packages/core/src/interpolation/collect.ts` over the templated
fields of a workflow.
-/

namespace Relavium.Interpolation

open Library
open Shared

/-- What kind of field a site is. -/
inductive ReferenceSiteCategory
  | contextValue
  | inputDefault
  | agentText
  | nodeText

/-- A field that carries at least one reference. -/
structure ReferenceSite where
  location : JsString
  category : ReferenceSiteCategory
  segments : List TemplateSegment
  references : List InterpolationReference

/-- `buildSite`: no site without a reference. -/
def buildSite (location : JsString) (category : ReferenceSiteCategory)
    (text : JsString) : Option ReferenceSite :=
  let segments := parseTemplate text
  let references := segments.filterMap TemplateSegment.reference?
  if references = [] then none
  else some { location, category, segments, references }

/-- The locator of a field of a node. -/
def nodeField (id : JsString)
    (field : String) : JsString :=
  jsText "node `" ++ id ++ jsText "`." ++ jsText field

/-- The site of an optional field. -/
def addFieldSite (location : JsString)
    (value : Option JsString) : List ReferenceSite :=
  (value.bind (buildSite location .nodeText)).toList

/-- `nodeReferenceSites`. -/
def nodeReferenceSites : WorkflowNode → List ReferenceSite
  | .agent node =>
    addFieldSite (nodeField node.id "prompt_template") node.promptTemplate ++
      addFieldSite (nodeField node.id "system_prompt_append") node.systemPromptAppend
  | .humanGate node =>
    addFieldSite (nodeField node.id "assignee") node.assignee ++
      addFieldSite (nodeField node.id "message_template") node.messageTemplate
  | _ => []

end Relavium.Interpolation
