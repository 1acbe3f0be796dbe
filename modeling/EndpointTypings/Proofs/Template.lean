import EndpointTypings.Template
import Mathlib.Tactic.SplitIfs

/-!
# What templates are filled with

Filling in a template can only fail at a place that the context does not have, and then only if no
block whose condition is false is around it (`Template.turns_render`). Where the context has every
place, the outcome is `Template.fill`: the pieces of the template one after the other, each place
replaced by what its value prints and each block by its pieces or by nothing. What is put in a place
is a part of the outcome as it is; no piece is looked at after it has been filled in.
-/

namespace EndpointTypings.Template

mutual

/-- The names of the places in a piece. -/
def placesOfPiece : Piece → List String
  | .text _ => []
  | .place name => [name]
  | .block _ body => places body

/-- The names of the places in a template, those in its blocks included. -/
def places : List Piece → List String
  | [] => []
  | piece :: pieces => placesOfPiece piece ++ places pieces

end

mutual

/-- A piece with its places replaced by values. -/
def fillPiece (value : String → Json) : Piece → String
  | .text text => text
  | .place name => print (value name)
  | .block condition body => if isTruthy (value condition) then fill value body else ""

/-- A template with its places replaced by values. -/
def fill (value : String → Json) : List Piece → String
  | [] => ""
  | piece :: pieces => fillPiece value piece ++ fill value pieces

end

/-- The places in the template of a method. -/
theorem places_method : places method =
    ["description", "api_name", "key", "opts_type", "params_type", "success_type",
      "response_type"] := rfl

/-- The places in the template of a file. -/
theorem places_interface :
    places interface = ["header_description", "interface_name", "body"] := rfl

/-- The value a context has under a name; null stands for none. -/
def valueIn (context : Json) (name : String) : Json :=
  (context.member? name).getD .null

mutual

/-- The names of the places in a piece that are filled in from a context: those in a block only if
its condition holds. -/
def openPlacesOfPiece (context : Json) : Piece → List String
  | .text _ => []
  | .place name => [name]
  | .block condition body =>
    if isTruthy (valueIn context condition) then openPlaces context body else []

/-- The names of the places in a template that are filled in from a context. -/
def openPlaces (context : Json) : List Piece → List String
  | [] => []
  | piece :: pieces => openPlacesOfPiece context piece ++ openPlaces context pieces

end

section Fill

variable {context : Json}

mutual

/-- The places of a piece that are filled in are places of it. -/
theorem mem_placesOfPiece {piece : Piece} {name : String}
    (h : name ∈ openPlacesOfPiece context piece) : name ∈ placesOfPiece piece := by
  cases piece with
  | text text => exact h
  | place other => exact h
  | block condition body =>
    rw [openPlacesOfPiece] at h
    split_ifs at h
    · exact mem_places h
    · exact absurd h List.not_mem_nil

/-- The places of a template that are filled in are places of it. -/
theorem mem_places {pieces : List Piece} {name : String} (h : name ∈ openPlaces context pieces) :
    name ∈ places pieces := by
  cases pieces with
  | nil => exact h
  | cons piece pieces =>
    rw [openPlaces, List.mem_append] at h
    exact List.mem_append.2 (h.imp mem_placesOfPiece mem_places)

end

/-- A block is left out unless its condition holds; a condition that the context does not have
counts as false. -/
theorem renderPiece_block (context : Json) (condition : String) (body : List Piece) :
    renderPiece context (.block condition body) =
      if isTruthy (valueIn context condition) then render context body else .ok "" := by
  rw [renderPiece, valueIn]
  cases context.member? condition with
  | none => rfl
  | some value => rfl

/-- What becomes of pieces that have some places to be filled in from a context: they are filled in,
or one of the places is missing in the context and that is an error. -/
def Turns (context : Json) (names : List String) (filled : String) (result : Except Error String) :
    Prop :=
  ((∀ name ∈ names, (context.member? name).isSome) ∧ result = .ok filled) ∨
    (∃ name ∈ names, context.member? name = none) ∧
      ∃ reason, result = .error (.template reason none)

mutual

/-- A piece is filled in, unless a place to be filled in is missing in the context. -/
theorem turns_renderPiece (context : Json) (piece : Piece) :
    Turns context (openPlacesOfPiece context piece) (fillPiece (valueIn context) piece)
      (renderPiece context piece) := by
  cases piece with
  | text text => exact .inl ⟨nofun, rfl⟩
  | place name =>
    rw [renderPiece, fillPiece, openPlacesOfPiece, valueIn]
    cases hv : context.member? name with
    | none => exact .inr ⟨⟨name, List.mem_cons_self, hv⟩, _, rfl⟩
    | some value => exact .inl ⟨by simp [hv], rfl⟩
  | block condition body =>
    have hbody := turns_render context body
    rw [renderPiece_block, fillPiece, openPlacesOfPiece]
    cases isTruthy (valueIn context condition) with
    | false => exact .inl ⟨nofun, rfl⟩
    | true => exact hbody

/-- A template is filled in, unless a place to be filled in is missing in the context. -/
theorem turns_render (context : Json) (pieces : List Piece) :
    Turns context (openPlaces context pieces) (fill (valueIn context) pieces)
      (render context pieces) := by
  cases pieces with
  | nil => exact .inl ⟨nofun, rfl⟩
  | cons piece pieces =>
    rw [render, openPlaces, fill]
    rcases turns_renderPiece context piece with ⟨hall, hpiece⟩ | ⟨⟨name, hm, hnone⟩, reason, hpiece⟩
    · rcases turns_render context pieces with ⟨hall', hrest⟩ | ⟨⟨name, hm, hnone⟩, reason, hrest⟩
      · refine .inl ⟨fun name hm => ?_, by rw [hpiece, hrest]; rfl⟩
        exact (List.mem_append.1 hm).elim (hall name) (hall' name)
      · exact .inr ⟨⟨name, List.mem_append_right _ hm, hnone⟩, reason, by rw [hpiece, hrest]; rfl⟩
    · exact .inr ⟨⟨name, List.mem_append_left _ hm, hnone⟩, reason, by rw [hpiece]; rfl⟩

end

/-- A template whose places the context has is filled in. -/
theorem render_eq_fill (pieces : List Piece)
    (h : ∀ name ∈ places pieces, (context.member? name).isSome) :
    render context pieces = .ok (fill (valueIn context) pieces) := by
  rcases turns_render context pieces with ⟨-, hfilled⟩ | ⟨⟨name, hm, hnone⟩, -⟩
  · exact hfilled
  · have hsome := h name (mem_places hm)
    rw [hnone] at hsome
    cases hsome

end Fill

end EndpointTypings.Template
