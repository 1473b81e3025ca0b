import SpeechService.Json.Record

/-!
Tables from language tags to names, with at most one entry for a tag, and the translator's own codes
for languages.
-/

set_option autoImplicit false

namespace SpeechService

structure TagTable where
  entries : List (String × String)
  /-- No tag has two entries. -/
  distinct : (entries.map Prod.fst).Nodup
  deriving DecidableEq, Repr

namespace TagTable

def find? (table : TagTable) (tag : String) : Option String := table.entries.lookup tag

def empty : TagTable := ⟨[], .nil⟩

def insert (table : TagTable) (tag name : String) : TagTable where
  entries := (tag, name) :: table.entries.filter (·.1 != tag)
  distinct := by
    refine List.nodup_cons.2 ⟨?_, table.distinct.sublist (List.filter_sublist.map Prod.fst)⟩
    simp

/-- The table of some entries, of which the last one for a tag counts. -/
def ofList (entries : List (String × String)) : TagTable :=
  entries.foldl (fun table entry => table.insert entry.1 entry.2) empty

/-- Insert a text into an ascending list of texts that holds none twice. -/
def insertAscending (text : String) : List String → List String
  | [] => [text]
  | other :: rest =>
    if text < other then text :: other :: rest
    else if text = other then other :: rest
    else other :: insertAscending text rest

def names (table : TagTable) : List String :=
  table.entries.foldl (fun names entry => insertAscending entry.2 names) []

/-- A table written as an object; the last member of a name counts. -/
def read (input : Json.Input) : Except Json.Fault (TagTable × Json.Input) := do
  let (entries, rest) ← Json.readTextTable input
  .ok (ofList entries, rest)

end TagTable

abbrev LanguageCodes := TagTable

namespace LanguageCodes

def standard : LanguageCodes :=
  .ofList [("en", "eng_Latn"), ("pt", "por_Latn"), ("pt-BR", "por_Latn"), ("es", "spa_Latn")]

def code? (codes : LanguageCodes) (tag : String) : Option String := codes.find? tag

def known (codes : LanguageCodes) : List String := codes.names

end LanguageCodes

end SpeechService
