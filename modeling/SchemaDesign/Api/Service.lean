import SchemaDesign.Api.Body
import SchemaDesign.Export.Format
import SchemaDesign.Store.Commit

/-! The service: one store, started empty, to which requests are put one after another. What the framework
does around it is left open. -/
namespace SchemaDesign.Api

def tableJson (t : Table String) : Json := Document.writeTable (t.map Json.str)

def fragmentJson (f : Ddl.Fragment) : Json :=
  .obj [("kind", .str f.reason.kind.name), ("text", .str f.text), ("reason", .str f.reason.message)]

def reportJson (r : Ddl.Report) : Json :=
  .obj [("tables", .arr (r.tables.map tableJson)), ("skipped", .arr (r.skipped.map fragmentJson))]

def notFound (id : String) : Response := detail 404 (.str ("Table " ++ id ++ " not found"))

def draftRefused (problems : List (Validation.Problem String)) : Response :=
  detail 422 (.arr (problems.map fun p => .str p.message))

def record (message : String) : Log.Record := ⟨Log.info, .api, message⟩

/-- A response that leaves the store as it is. -/
def unchanged (s : Store String) (r : Response) : Outcome String Answer := ⟨.ok r, s, []⟩

def createTable (s : Store String) (d : Draft String) : Outcome String Answer :=
  match Validation.problems d.name d.columns with
  | [] =>
      let o := s.create d
      match o.result with
      | some t =>
          ⟨.ok ⟨201, some (tableJson t)⟩, o.store,
            o.records ++ [record ("Created table '" ++ t.name ++ "' (" ++ t.id ++ ")")]⟩
      | none => ⟨.ok (draftRefused []), o.store, o.records⟩
  | problems => unchanged s (draftRefused problems)

def replaceTable (s : Store String) (id : String) (d : Draft String) : Outcome String Answer :=
  match s.get? id, Validation.problems d.name d.columns with
  | none, _ => unchanged s (notFound id)
  | some _, [] =>
      let o := s.update id d
      match o.result with
      | some t => ⟨.ok ⟨200, some (tableJson t)⟩, o.store, o.records⟩
      | none => ⟨.ok (notFound id), o.store, o.records⟩
  | some _, problems => unchanged s (draftRefused problems)

def importTables (s : Store String) (text : String) : Outcome String Answer :=
  let o := s.importDdl text
  match o.result with
  | .ok report => ⟨.ok ⟨200, some (reportJson report)⟩, o.store, o.records⟩
  | .error e => ⟨.error (.numeral e), o.store, o.records⟩

def removeTable (s : Store String) (id : String) : Outcome String Answer :=
  let o := s.delete id
  if o.result then ⟨.ok ⟨204, none⟩, o.store, o.records⟩ else unchanged s (notFound id)

def exportCode (settings : Settings) (now : String) (s : Store String) (name : String) :
    Outcome String Answer :=
  match Export.Format.ofText? name with
  | none => unchanged s (detail 400 (.str (Export.UnknownFormat.message ⟨Text.quoted name⟩)))
  | some f =>
      if s.tables.isEmpty then
        unchanged s (detail 400 (.str "Create at least one table before exporting"))
      else
        ⟨.ok ⟨200, some (.obj [("format", .str f.value),
            ("code", .str (Export.schema settings.exports f now s.tables))])⟩,
          s, [Export.record f s.tables.length]⟩

/-- Does what is asked. A body is read before anything else happens; if it is refused, that is the answer. -/
def perform (fw : Framework) (settings : Settings) (now : String) (s : Store String) (op : Operation)
    (body : String) : Except Answer (Outcome String Answer) :=
  match op with
  | .describe =>
      .ok (unchanged s ⟨200, some (.obj [("service", .str Settings.appName),
        ("version", .str Settings.appVersion), ("status", .str "operational")])⟩)
  | .report =>
      .ok (unchanged s ⟨200, some (.obj [("status", .str "healthy"), ("timestamp", .str now),
        ("tables", .int s.tables.length)])⟩)
  | .list => .ok (unchanged s ⟨200, some (.arr (s.tables.map tableJson))⟩)
  | .create => (fw.read (draftModel fw.toValidators) body).map (createTable s)
  | .importDdl => (fw.read (importModel fw.toValidators) body).map (importTables s)
  | .get id =>
      match s.get? id with
      | some t => .ok (unchanged s ⟨200, some (tableJson t)⟩)
      | none => .ok (unchanged s (notFound id))
  | .replace id => (fw.read (draftModel fw.toValidators) body).map (replaceTable s id)
  | .remove id => .ok (removeTable s id)
  | .download name => .ok (exportCode settings now s name)

/-- The response to an operation is sent when all has been done; the framework's own answers are sent
already. -/
def respond (fw : Framework) (settings : Settings) (now : String) (s : Store String) (r : Request) :
    Outcome String Answer :=
  match fw.route r.method r.path.toList with
  | .answer response => unchanged s response
  | .operation op =>
      match perform fw settings now s op r.body with
      | .ok o => { o with result := o.result.bind fw.send }
      | .error answer => ⟨answer, s, []⟩

/-- The answers to some requests, in order, and what they log. -/
def serveFrom (fw : Framework) (settings : Settings) (now : String) (s : Store String) :
    List Request → List Answer × List Log.Record
  | [] => ([], [])
  | r :: rest =>
      let o := respond fw settings now s r
      let later := serveFrom fw settings now o.store rest
      (o.result :: later.1, o.records ++ later.2)

/-- A whole session, from start to shutdown. -/
def serve (fw : Framework) (settings : Settings) (now : String) (ids : TableId.Supply)
    (requests : List Request) : List Answer × List Log.Record :=
  let session := serveFrom fw settings now (Store.empty ids) requests
  (session.1,
    record "Starting tabledraft API..." :: session.2 ++ [record "Shutting down tabledraft API..."])

end SchemaDesign.Api
