import DataAccess.Toml.Statement

/-!
# Reading TOML

TOML 1.0. A header opens a section, whose values go to the table that the header names; values
before the first header go to the whole document.
-/

namespace DataAccess.Toml

/-- What a header opens. -/
inductive Opening where
  | root
  | table (key : List String)
  | tables (key : List String)

structure Section where
  opening : Opening
  values : List (List String × Document)

/-- The section that is open, and the sections after it. -/
def sections (opening : Opening) : List Statement → List Section
  | [] => [⟨opening, []⟩]
  | .value k d :: ss =>
    match sections opening ss with
    | s :: rest => ⟨s.opening, (k, d) :: s.values⟩ :: rest
    | [] => []
  | .table k :: ss => ⟨opening, []⟩ :: sections (.table k) ss
  | .tables k :: ss => ⟨opening, []⟩ :: sections (.tables k) ss

namespace Section

def fill (s : Section) (fs : Fields) : Option Fields :=
  s.values.foldlM (fun fs (k, d) => fs.insert d k) fs

/-- Adds a section to a document. -/
def addTo (fs : Fields) (s : Section) : Option Fields :=
  match s.opening with
  | .root => s.fill fs
  | .table key => do fs.under (Fields.define (← key.getLast?) s.fill) key.dropLast
  | .tables key => do fs.under (Fields.push (← key.getLast?) s.fill) key.dropLast

end Section

/-- Reads the whole of a text, which may start with a byte order mark. -/
def read? (s : String) : Option Document := do
  let cs := match s.toList with
    | '\uFEFF' :: cs => cs
    | cs => cs
  let ss ← statements? cs
  let fs ← (sections .root ss).foldlM Section.addTo []
  return .table (Fields.documents fs)

end DataAccess.Toml
