/-! Files by their paths, in a folder of files that are all texts. -/

namespace ChronicleMeta.CommandLine

inductive File where
  | absent
  | unreadable
  | text (s : String)

def steps (path : String) : List String := path.splitOn "/"

def staysHere (step : String) : Bool := step = "" || step = "."

structure Folder where
  /-- The names that lead to a text, and the text. -/
  entries : List (List String × String) := []

namespace Folder

def ofFiles (files : List (String × String)) : Folder where
  entries := files.map fun (path, s) => ((steps path).filter fun step => !staysHere step, s)

/-- What the steps lead to from the folder of the names `here`. A text is no folder, so no step leads
on from it. Of what lies outside nothing is known but that folders lie above. -/
def walk (f : Folder) (here : List String) : List String → File
  | [] => .unreadable
  | step :: steps =>
    if staysHere step then f.walk here steps
    else if step = ".." then
      if here ≠ [] then f.walk here.dropLast steps
      else if steps.all fun step => staysHere step || step = ".." then .unreadable
      else .absent
    else
      let place := here ++ [step]
      match f.entries.lookup place with
      | some s => if steps = [] then .text s else .absent
      | none => if f.entries.any fun e => place.isPrefixOf e.1 then f.walk place steps else .absent

/-- What is found under the path, which starts in the folder unless it starts with a slash. -/
def file (f : Folder) (path : String) : File :=
  match steps path with
  | "" :: rest => f.walk [] (".." :: rest)
  | rest => f.walk [] rest

end Folder

end ChronicleMeta.CommandLine
