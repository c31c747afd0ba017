import Stencil.Renderer
import Stencil.Report

/-! # Sessions

A session holds a renderer and a current text.  What it renders becomes the current text, so it can
be rendered again; a request that fails leaves the session as it was (`answer_of_error`), so later
requests are answered as if it had not been made (`answers_of_error`). -/

namespace Stencil

/-- A renderer at work on a text. -/
structure Session where
  renderer : Renderer := {}
  text : Text := []
deriving DecidableEq, Repr

namespace Session

/-- What a session can be asked. -/
inductive Request where
  | chooseDelimiter (token : Text)
  | render (template : Text) (data : Value)
  | renderAgain (data : Value)
  | report
  | isRendererFor (token : Text)
  | replaceToken (token : Text)
deriving Repr

/-- What a session answers. -/
inductive Reply where
  | renderer (r : Renderer)
  | text (text : Text)
  | report (r : Report)
  | truth (b : Bool)
deriving Repr

/-- Why a request failed. -/
inductive Refusal where
  | fault (fault : Fault)
  /-- A renderer keeps its token. -/
  | fixedToken
deriving DecidableEq, Repr

/-- The wording of a refusal. -/
def Refusal.message : Refusal → Text
  | fault f => f.message
  | fixedToken => "cannot assign to field 'delimiter'".toList

/-- Renders a template, which becomes the current text. -/
def renderText (s : Session) (template : Text) (data : Value) :
    Session × Except Refusal Reply :=
  match s.renderer.render template data with
  | .ok result => ({ s with text := result }, .ok (.text result))
  | .error fault => (s, .error (.fault fault))

/-- Answers one request. -/
def answer (s : Session) : Request → Session × Except Refusal Reply
  | .chooseDelimiter token => ({ s with renderer := ⟨token⟩ }, .ok (.renderer ⟨token⟩))
  | .render template data => s.renderText template data
  | .renderAgain data => s.renderText s.text data
  | .report => (s, .ok (.report (Report.ofTemplate s.renderer.delimiters s.text)))
  | .isRendererFor token => (s, .ok (.truth (s.renderer == ⟨token⟩)))
  | .replaceToken _ => (s, .error .fixedToken)

/-- Answers requests one after the other. -/
def answers (s : Session) : List Request → List (Except Refusal Reply)
  | [] => []
  | request :: requests =>
    let (s, reply) := s.answer request
    reply :: answers s requests

/-- The session once it has answered requests. -/
def after (s : Session) : List Request → Session
  | [] => s
  | request :: requests => after (s.answer request).1 requests

/-! ### Requests that fail -/

section failure
variable {s : Session} {request : Request} {refusal : Refusal}

theorem renderText_of_error {template : Text} {data : Value}
    (h : (s.renderText template data).2 = .error refusal) : (s.renderText template data).1 = s := by
  unfold renderText at h ⊢
  split
  · rename_i rendered
    rw [rendered] at h
    cases h
  · rfl

/-- A request that fails leaves the session as it was. -/
theorem answer_of_error (h : (s.answer request).2 = .error refusal) : (s.answer request).1 = s := by
  cases request with
  | chooseDelimiter token => cases h
  | render template data => exact renderText_of_error h
  | renderAgain data => exact renderText_of_error h
  | report | isRendererFor token | replaceToken token => rfl

theorem answers_cons (s : Session) (request : Request) (requests : List Request) :
    s.answers (request :: requests)
      = (s.answer request).2 :: (s.answer request).1.answers requests := rfl

theorem answers_append (s : Session) (requests later : List Request) :
    s.answers (requests ++ later) = s.answers requests ++ (s.after requests).answers later := by
  induction requests generalizing s with
  | nil => rfl
  | cons request requests ih =>
    rw [List.cons_append, answers_cons, answers_cons, ih, after, List.cons_append]

/-- A request that fails among others is answered with its refusal.  What comes after it is answered as it
would be without it, which is `answers_append`. -/
theorem answers_of_error {requests : List Request}
    (h : ((s.after requests).answer request).2 = .error refusal) (later : List Request) :
    s.answers (requests ++ request :: later)
      = s.answers requests ++ .error refusal :: (s.after requests).answers later := by
  rw [answers_append, answers_cons, answer_of_error h, h]

end failure

end Session
end Stencil
