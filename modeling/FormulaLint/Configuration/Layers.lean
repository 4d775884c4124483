import FormulaLint.Configuration
import FormulaLint.Languages
import FormulaLint.Notice

/-! The configuration of a run: the packaged one with documents from the disk on top. -/

namespace FormulaLint.Configuration

/-- The entries of what the text of a document comes to. One that holds nothing has none. -/
def documentEntries (path : Path) : Except DocumentFault Value → Except Failure Entries
  | .error (.invalid reason) => .error (.configuration (.invalidDocument path.text reason))
  | .error .interrupted => .error .documentInterrupted
  | .ok (.scalar .null) => .ok []
  | .ok (.mapping entries) => .ok entries
  | .ok _ => .error (.configuration (.documentNotMapping path.text))

/-- The entries of a document. One that is missing has none. The bytes are decoded as a whole before
the grammar sees any of the text. -/
def readDocument (languages : Languages) (disk : Disk) (path : Path) : Except Failure Entries :=
  match disk.read path with
  | .error fault => .error (.disk fault)
  | .ok none => .ok []
  | .ok (some bytes) =>
      match Text.decode bytes with
      | .error _ => .error .documentNotText
      | .ok text => documentEntries path (languages.document text)

def addLayer (languages : Languages) (disk : Disk) (configuration : Configuration) (path : Path) :
    Except Failure Configuration × List Notice :=
  match readDocument languages disk path with
  | .error failure => (.error failure, [])
  | .ok [] => (.ok configuration, [.emptyConfiguration path.text])
  | .ok document =>
      ((configuration.layer document).mapError .configuration, [.mergingConfiguration path.text])

def addLayers (languages : Languages) (disk : Disk) (configuration : Configuration) :
    List Path → Except Failure Configuration × List Notice
  | [] => (.ok configuration, [])
  | path :: rest =>
      match configuration.addLayer languages disk path with
      | (.ok layered, noticed) =>
          let later := addLayers languages disk layered rest
          (later.1, noticed ++ later.2)
      | stopped => stopped

/-- The packaged configuration with the documents at the paths on top, the last one uppermost. -/
def load (languages : Languages) (disk : Disk) (paths : List Path) :
    Except Failure Configuration × List Notice :=
  match packaged with
  | .error fault => (.error (.configuration fault), [])
  | .ok configuration => configuration.addLayers languages disk paths

end FormulaLint.Configuration
