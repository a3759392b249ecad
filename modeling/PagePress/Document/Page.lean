import PagePress.Json.Value

namespace PagePress

def sourceKey : String := "Base64PageData"

def isSourceField : String × Json → Bool
  | (key, .str _) => key == sourceKey
  | _ => false

structure Page where
  source : Option String
  fields : Fields
  lifted : ∀ field ∈ fields, isSourceField field = false

namespace Page

-- What kind of value stands under the key decides: only a string is a source.
def ofFields (fields : Fields) : Page where
  source :=
    match Fields.get? fields sourceKey with
    | some (.str source) => some source
    | _ => none
  fields := fields.filter (!isSourceField ·)
  lifted field member := by simpa using (List.mem_filter.mp member).2

def replaceSource (page : Page) (source : String) : Page := { page with source := some source }

def withSource (source : String) (fields : Fields) : Page := (ofFields fields).replaceSource source

def field? (page : Page) (key : String) : Option Json := Fields.get? page.fields key

-- The source goes in last, or takes the place of the value that stands under its key.
def toFields (page : Page) : Fields :=
  match page.source with
  | some source => Fields.insert page.fields sourceKey (.str source)
  | none => page.fields

def toJson (page : Page) : Json := .obj page.toFields

def same (a b : Page) : Bool := a.source == b.source && (Json.obj a.fields).same (.obj b.fields)

end Page
end PagePress
