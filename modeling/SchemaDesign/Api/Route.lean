import SchemaDesign.Api.Framework

/-! The addresses of the service: what a method and a path ask for. Paths are taken as they are written. -/
namespace SchemaDesign.Api

/-- `pages` are known addresses at which nothing can be done here. -/
inductive Resource where
  | root
  | health
  | tables
  | imports
  | table (id : String)
  | code (format : String)
  | pages
deriving DecidableEq

/-- The operations of a resource and the methods that ask for them. -/
def Resource.operations : Resource → List (String × Operation)
  | root => [("GET", .describe)]
  | health => [("GET", .report)]
  | tables => [("GET", .list), ("POST", .create)]
  | imports => [("POST", .importDdl)]
  | table id => [("GET", .get id), ("PUT", .replace id), ("DELETE", .remove id)]
  | code format => [("GET", .download format)]
  | pages => []

/-- The addresses that name one resource each. -/
def fixedAddresses : List (String × Resource) :=
  [("/", .root), ("/health", .health), ("/tables", .tables), ("/tables/import", .imports),
   ("/openapi.json", .pages), ("/docs", .pages), ("/docs/oauth2-redirect", .pages), ("/redoc", .pages)]

/-- A path without the line break that may end it. -/
def withoutBreak (path : List Char) : List Char :=
  if path.getLast? = some '\n' then path.dropLast else path

/-- What stands behind a beginning, if it is not empty and holds no slash. -/
def parameter? (start : String) (path : List Char) : Option String :=
  if start.toList.isPrefixOf path then
    let rest := path.drop start.length
    if rest.isEmpty || rest.contains '/' then none else some (String.ofList rest)
  else none

/-- The resources at a path. One line break may follow an address that names a single resource; in a
parameter it counts. An import has the address of a table, too. -/
def resourcesAt (path : List Char) : List Resource :=
  (fixedAddresses.lookup (String.ofList (withoutBreak path))).toList
    ++ ((parameter? "/tables/" path).map Resource.table).toList
    ++ ((parameter? "/export/" path).map Resource.code).toList

/-- A path with the slashes at its end taken off, or with one put there. -/
def withOtherEnd (path : List Char) : List Char :=
  if path.getLast? = some '/' then (path.reverse.dropWhile (· == '/')).reverse else path ++ ['/']

/-- A path that is not known is redirected where it is known with another end. -/
def destination (method : String) (path : List Char) : Destination :=
  match resourcesAt path with
  | [] =>
      if (resourcesAt (withOtherEnd path)).isEmpty then .answer (detail 404 (.str "Not Found"))
      else .answer ⟨307, none⟩
  | resources =>
      match (resources.flatMap (·.operations)).lookup method with
      | some op => .operation op
      | none => .answer (detail 405 (.str "Method Not Allowed"))

end SchemaDesign.Api
