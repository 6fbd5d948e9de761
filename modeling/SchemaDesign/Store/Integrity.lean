import SchemaDesign.Model.ForeignKey
import SchemaDesign.Store.Basic

/-! Keeping references whole: a draft may not bring in a reference that leads nowhere, and foreign keys
are demoted when the columns that they point at go away. -/
namespace SchemaDesign.Store

variable {τ : Type} [BEq τ] [Label τ]

/-- Whether a reference leads to a column, `owner` being a table with the given columns. -/
def leadsTo (s : Store τ) (owner : τ) (columns : List (Column τ)) (r : Reference τ) : Bool :=
  r.isSet &&
    if r.tableId == owner then columns.any (·.name == r.columnName)
    else (s.get? r.tableId).any fun t => (t.column? r.columnName).isSome

/-- Whether a foreign key of a draft holds a reference that leads nowhere. -/
def dangles (s : Store τ) (owner : τ) (columns : List (Column τ)) (c : Column τ) : Bool :=
  c.foreignKey && !c.references.isUnset && !s.leadsTo owner columns c.references

/-- Empties every reference that leads nowhere, and every one of a column that is no foreign key. -/
def sanitise (s : Store τ) (owner : τ) (columns : List (Column τ)) : List (Column τ) :=
  columns.map fun c =>
    if !c.foreignKey || s.dangles owner columns c then { c with references := Reference.unset } else c

/-- Whether the removed columns of a table had a name, and if so whether the first of that name was
nullable. -/
def nullability? (removed : List (Column τ)) (name : τ) : Option Bool :=
  (removed.find? (·.name == name)).map (·.nullable)

/-- The columns to be demoted when the `removed` columns of a table go away, or the table itself. -/
def isHit (target : τ) (removed : List (Column τ)) (whole : Bool) (c : Column τ) : Bool :=
  c.foreignKey && c.references.tableId == target
    && ((nullability? removed c.references.columnName).isSome || whole)

def demoteColumn (target : τ) (removed : List (Column τ)) (whole : Bool) (c : Column τ) : Column τ :=
  if isHit target removed whole c then
    c.demote ((nullability? removed c.references.columnName).getD c.nullable)
  else c

/-- Demotes the foreign keys of all other tables that lose their target. -/
def demoteReferences (target : τ) (removed : List (Column τ)) (whole : Bool) (ts : List (Table τ)) :
    List (Table τ) :=
  ts.map fun t =>
    if t.id == target then t else { t with columns := t.columns.map (demoteColumn target removed whole) }

def demotedCount (target : τ) (removed : List (Column τ)) (whole : Bool) (ts : List (Table τ)) : Nat :=
  ((ts.filter fun t => !(t.id == target)).flatMap (·.columns)).countP (isHit target removed whole)

end SchemaDesign.Store
