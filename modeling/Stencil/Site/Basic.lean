import Stencil.Render.Engine
import Stencil.Site.Settings

/-! Views inside layouts. Both are rendered with the same parameters, and the view then
takes the place of the layout's marker. The text of a file is read once and kept under its
normal path. The answer is the page, or in its place a short one that gives nothing away. -/
namespace Stencil

structure Site where
  engine : Engine
  defaultLayout : Text
  marker : Text
  cache : Ledger Text

namespace Site

def useLayout (s : Site) (name : Text) : Except Failure Site :=
  if name = [] then .error .emptyLayoutName else .ok { s with defaultLayout := name }

def useMarker (s : Site) (marker : Text) : Except Failure Site :=
  if marker = [] then .error .emptyMarker else .ok { s with marker }

/-- A site with nothing in its cache; the layout's name is checked before the marker. Views, layouts
and included files share the engine's directory and the reader of a render. The directory is taken
as it is given: a relative one stays relative. -/
def create (engine : Engine) (layout marker : Text) : Except Failure Site := do
  let s ← useLayout ⟨engine, [], [], []⟩ layout
  s.useMarker marker

/-- The one directory of the settings serves the site and its engine. -/
def ofSettings (settings : Settings) (catalog : Catalog) : Except Failure Site :=
  create ⟨⟨settings.viewsDirectory⟩, catalog, settings.maxPartialDepth⟩
    settings.defaultLayout settings.contentMarker

def register (s : Site) (name : Text) (helper : Helper) : Site :=
  { s with engine := { s.engine with catalog := s.engine.catalog.register name helper } }

def unregister (s : Site) (name : Text) : Site :=
  { s with engine := { s.engine with catalog := s.engine.catalog.remove name } }

/-- What changes while a page is made: the cache, and the record of requests for files. -/
structure Session where
  cache : Ledger Text
  reads : List FilePath

def cacheKey (path : FilePath) : Text := path.normal.text

/-- Runs a computation that only asks for files. -/
def onReads (x : Reading (List FilePath) α) : Reading Session α := ExceptT.mk do
  let session ← get
  let (result, reads) := x.outcome session.reads
  set { session with reads }
  return result

/-- The text of a file, from the cache if it is there. What cannot be read is not kept. -/
def load (reader : Reader) (path : FilePath) : Reading Session Text := do
  match (← getThe Session).cache.get? (cacheKey path) with
  | some content => return content
  | none =>
    match ← onReads (Engine.request reader path) with
    | .ok content =>
      modifyThe Session fun session =>
        { session with cache := session.cache.put (cacheKey path) content }
      return content
    | .error (.failed cause) => throw cause
    | .error _ => throw (.fileMissing path.text)

/-- The render of a file's text. Its tokens are drawn for its own requests, so that they do not
depend on what was asked for before. -/
def renderText (s : Site) (reader : Reader) (tokens : Tokens) (parameters : Value)
    (template : Text) : Reading (List FilePath) Text := ExceptT.mk do
  let earlier ← get
  let later : Reader := fun asked path => reader (earlier ++ asked) path
  let (result, asked) := (s.engine.render later tokens parameters template).outcome []
  set (earlier ++ asked)
  return result

def renderFile (s : Site) (reader : Reader) (tokens : Tokens) (parameters : Value)
    (path : FilePath) : Reading Session Text := do
  let template ← load reader path
  onReads (s.renderText reader tokens parameters template)

/-- An empty layout name stands for the default, like none at all. -/
def layoutName (s : Site) (layout? : Option Text) : Text :=
  match layout? with
  | none | some [] => s.defaultLayout
  | some name => name

def page (s : Site) (reader : Reader) (tokens : Tokens) (view : Text) (parameters : Value)
    (layout? : Option Text) : Reading Session Text := do
  let views := s.engine.views
  let layout ← s.renderFile reader (fun n => tokens (2 * n)) parameters
    (views.layout (s.layoutName layout?))
  let content ← s.renderFile reader (fun n => tokens (2 * n + 1)) parameters (views.view view)
  return Text.replaceFirst s.marker content layout

/-- A page, the files that were asked for, and the site with what it has read. -/
def render (s : Site) (reader : Reader) (tokens : Tokens) (view : Text) (parameters : Value)
    (layout? : Option Text) : Except Failure Text × List FilePath × Site :=
  let (result, session) :=
    (s.page reader tokens view parameters layout?).outcome ⟨s.cache, []⟩
  (result, session.reads, { s with cache := session.cache })

/-- What can be asked of a site. -/
inductive Operation
  | render (view : Text) (parameters : Value) (layout? : Option Text)
  | useLayout (name : Text)
  | useMarker (marker : Text)
  | register (name : Text) (helper : Helper)

/-- The site after a change, or as it was if the change is refused. -/
def settle (s : Site) : Except Failure Site →
    Except Failure (Option Text) × List FilePath × Site
  | .ok changed => (.ok none, [], changed)
  | .error failure => (.error failure, [], s)

/-- The page, if one was asked for, the requests for files, and the site afterwards. -/
def perform (s : Site) (reader : Reader) (tokens : Tokens) :
    Operation → Except Failure (Option Text) × List FilePath × Site
  | .render view parameters layout? =>
    let (result, reads, next) := s.render reader tokens view parameters layout?
    (some <$> result, reads, next)
  | .useLayout name => s.settle (s.useLayout name)
  | .useMarker marker => s.settle (s.useMarker marker)
  | .register name helper => s.settle (.ok (s.register name helper))

end Site

structure Response where
  status : Int
  contentType : Text
  body : Text
deriving DecidableEq

namespace Response

def html : Text := "text/html; charset=utf-8".toList
def json : Text := "application/json".toList

def errorPage (title detail : Text) : Text :=
  "<html><body><h1>".toList ++ Markup.escape title ++ "</h1><p>".toList ++ Markup.escape detail ++
    "</p></body></html>".toList

def notFound : Response :=
  ⟨404, html, errorPage "Not Found".toList "The requested page does not exist.".toList⟩

def helperError : Response :=
  ⟨500, html, errorPage "Internal Server Error".toList "The page could not be rendered.".toList⟩

/-- Failures that are neither a missing file nor a helper's have no page; they go on to whoever runs
the site. -/
def ofFailure : Failure → Except Failure Response
  | .fileMissing _ => .ok notFound
  | failure => if failure.isHelperFailure then .ok helperError else .error failure

/-- The status counts only for a page that was made. -/
def ofPage (status : Int) : Except Failure Text → Except Failure Response
  | .ok page => .ok ⟨status, html, page⟩
  | .error failure => ofFailure failure

end Response

end Stencil
