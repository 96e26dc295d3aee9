import ChronicleMeta.Json.Writer
import ChronicleMeta.Text.Basic

/-! Reports, as lines of text or as data. -/

namespace ChronicleMeta

class Report (α : Type) where
  lines : α → List String
  toJson : α → Json

inductive ReportFormat where
  /-- As text, in which each line ends with a line feed. -/
  | text
  | json
deriving DecidableEq, Repr

def Report.write {α : Type} [Report α] (format : ReportFormat) (a : α) : String :=
  match format with
  | .text => Text.unlines (lines a)
  | .json => (toJson a).pretty 0

structure NameList where
  title : String
  names : List String

instance : Report NameList where
  lines l := Text.heading l.title ++ if l.names.isEmpty then ["(none)"] else l.names
  toJson l := .object [("title", .string l.title), ("names", .ofTexts l.names)]

end ChronicleMeta
