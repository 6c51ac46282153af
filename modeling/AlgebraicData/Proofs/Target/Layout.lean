import AlgebraicData.Proofs.Prelude
import AlgebraicData.Target.Layout

/-!
# The laws of layouts

Code is laid out by documents: texts and line breaks one after another, some of them nested.  All
that counts about documents is what they look like inside a number of nestings, and
`Documents.Lawful` says what that has to be for each operation.

Layouts are such documents (`Layout.lawful_documents`), and a block is put together by these
operations alone (`Layout.block_eq`).  The laws leave nothing open: documents of any other kind that
meets them look like layouts (`Documents.Lawful.render_ofLayout`).
-/

namespace AlgebraicData.Target

/-- A kind of documents. -/
structure Documents (Doc : Type) where
  nil : Doc
  text : String → Doc
  append : Doc → Doc → Doc
  hardline : Doc
  nest : Doc → Doc
  /-- The text of a document inside a number of nestings. -/
  render : Nat → Doc → String

namespace Documents

variable {Doc : Type}

/-- Texts are put down as they are and parts one after another, and every line break is followed by
`indent` spaces for each nesting around it. -/
structure Lawful (docs : Documents Doc) (indent : Nat) : Prop where
  render_nil : ∀ depth, docs.render depth docs.nil = ""
  render_text : ∀ depth value, docs.render depth (docs.text value) = value
  render_append : ∀ depth doc doc', docs.render depth (docs.append doc doc') =
    docs.render depth doc ++ docs.render depth doc'
  render_hardline : ∀ depth, docs.render depth docs.hardline =
    String.ofList ('\n' :: List.replicate (depth * indent) ' ')
  render_nest : ∀ depth doc, docs.render depth (docs.nest doc) = docs.render (depth + 1) doc

/-- The document for a piece of a layout. -/
def ofPiece (docs : Documents Doc) : Piece → Doc
  | .text value => docs.text value
  | .newline depth => docs.nest^[depth] docs.hardline

/-- The document for a layout. -/
def ofLayout (docs : Documents Doc) (layout : Layout) : Doc :=
  layout.foldr (fun piece => docs.append (docs.ofPiece piece)) docs.nil

end Documents

namespace Layout

/-! ## Layouts as documents -/

/-- Layouts, with `indent` spaces for each block. -/
def documents (indent : Nat) : Documents Layout where
  nil := []
  text := text
  append layout layout' := layout ++ layout'
  hardline := [.newline 0]
  nest := deepen
  render depth layout := (deepen^[depth] layout).render indent

theorem deepen_append (layout layout' : Layout) :
    deepen (layout ++ layout') = deepen layout ++ deepen layout' :=
  List.map_append

theorem iterate_deepen_append (depth : Nat) (layout layout' : Layout) :
    deepen^[depth] (layout ++ layout') = deepen^[depth] layout ++ deepen^[depth] layout' := by
  induction depth generalizing layout layout' with
  | zero => rfl
  | succ depth ih =>
    simp only [Function.iterate_succ_apply]
    rw [deepen_append, ih]

theorem iterate_deepen_newline (depth level : Nat) :
    deepen^[depth] [.newline level] = [.newline (level + depth)] := by
  induction depth generalizing level with
  | zero => rfl
  | succ depth ih =>
    rw [Function.iterate_succ_apply]
    exact (ih (level + 1)).trans (by rw [Nat.add_right_comm, Nat.add_assoc])

theorem render_append (indent : Nat) (layout layout' : Layout) :
    render indent (layout ++ layout') = render indent layout ++ render indent layout' := by
  rw [render, List.map_append, String.join_append, render, render]

theorem render_singleton (indent : Nat) (piece : Piece) :
    render indent [piece] = renderPiece indent piece := by
  simp [render]

theorem lawful_documents (indent : Nat) : (documents indent).Lawful indent where
  render_nil depth := by
    have hnil : deepen^[depth] [] = [] := Function.iterate_fixed rfl depth
    exact congrArg (render indent) hnil
  render_text depth value := by
    have htext : deepen^[depth] (text value) = text value := Function.iterate_fixed rfl depth
    exact (congrArg (render indent) htext).trans (render_singleton indent _)
  render_append depth layout layout' := by
    exact (congrArg (render indent) (iterate_deepen_append depth layout layout')).trans
      (render_append indent _ _)
  render_hardline depth := by
    have hnewline : deepen^[depth] [.newline 0] = [.newline depth] := by
      rw [iterate_deepen_newline, Nat.zero_add]
    exact (congrArg (render indent) hnewline).trans (render_singleton indent _)
  render_nest depth layout := rfl

/-- A line break before each layout is one before the first and one between any two. -/
theorem newline_append_intercalate {layouts : List Layout} (h : layouts ≠ []) :
    [.newline 0] ++ List.intercalate [.newline 0] layouts =
      layouts.flatMap fun layout => .newline 0 :: layout := by
  induction layouts with
  | nil => exact absurd rfl h
  | cons layout layouts ih =>
    cases layouts with
    | nil => simp
    | cons next layouts =>
      rw [List.intercalate_cons_cons, List.flatMap_cons, ← ih (List.cons_ne_nil _ _)]
      simp

/-- A block is its layouts between braces, nested, each on a line of its own. -/
theorem block_eq {layouts : List Layout} (h : layouts ≠ []) :
    block layouts = text openBrace ++
      deepen ([.newline 0] ++ List.intercalate [.newline 0] layouts) ++ [.newline 0] ++
        text closeBrace := by
  rw [newline_append_intercalate h, deepen, List.map_flatMap, List.append_assoc]
  cases layouts with
  | nil => exact absurd rfl h
  | cons layout layouts => rfl

end Layout

/-! ## Other documents -/

namespace Documents.Lawful

variable {Doc : Type} {docs : Documents Doc} {indent : Nat}

theorem render_iterate_nest (h : docs.Lawful indent) (count depth : Nat) (doc : Doc) :
    docs.render depth (docs.nest^[count] doc) = docs.render (depth + count) doc := by
  induction count generalizing doc with
  | zero => rfl
  | succ count ih =>
    rw [Function.iterate_succ_apply, ih, h.render_nest, Nat.add_assoc]

theorem render_ofPiece (h : docs.Lawful indent) (depth : Nat) (piece : Piece) :
    docs.render depth (docs.ofPiece piece) = (Layout.deepen^[depth] [piece]).render indent := by
  cases piece with
  | text value =>
    exact (h.render_text depth value).trans
      ((Layout.lawful_documents indent).render_text depth value).symm
  | newline level =>
    rw [ofPiece, h.render_iterate_nest, h.render_hardline, Layout.iterate_deepen_newline,
      Layout.render_singleton, Layout.renderPiece, Nat.add_comm]

/-- Lawful documents of every kind put a layout down in the same way. -/
theorem render_ofLayout (h : docs.Lawful indent) (depth : Nat) (layout : Layout) :
    docs.render depth (docs.ofLayout layout) = (Layout.deepen^[depth] layout).render indent := by
  induction layout with
  | nil =>
    exact (h.render_nil depth).trans ((Layout.lawful_documents indent).render_nil depth).symm
  | cons piece layout ih =>
    calc docs.render depth (docs.ofLayout (piece :: layout))
        = docs.render depth (docs.ofPiece piece) ++ docs.render depth (docs.ofLayout layout) :=
          h.render_append depth _ _
      _ = (Layout.deepen^[depth] [piece]).render indent ++
            (Layout.deepen^[depth] layout).render indent := by rw [h.render_ofPiece, ih]
      _ = (Layout.deepen^[depth] (piece :: layout)).render indent :=
          ((Layout.lawful_documents indent).render_append depth [piece] layout).symm

end Documents.Lawful

end AlgebraicData.Target
