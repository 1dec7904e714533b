import HttpServer.Config.Document
import HttpServer.Site.FileTree

/-!
# Configuration files

Loading reads a configuration document out of a file, and saving writes one into a file. Saving
writes the document as a whole or, when it cannot be made, nothing at all.
-/

namespace HttpServer

namespace ServerConfig

/-- The settings in a file. -/
def load (processors : UInt64) (files : FileTree) (path : Bytes) :
    Except ServerError ServerConfig :=
  match files.file path with
  | .error e => .error (.io e)
  | .ok f => ofFile processors f.data

/-- Saves the settings. The answer tells whether that could be done, and what the files are then. -/
def save (c : ServerConfig) (files : FileTree) (path : Bytes) :
    Except ServerError Unit × FileTree :=
  match c.toDocument with
  | .error f => (.error (.json f), files)
  | .ok document =>
    match files.write path document with
    | .error e => (.error (.io e), files)
    | .ok written => (.ok (), written)

/-- Where a path among the settings is not a text, nothing is written. -/
theorem save_of_not_pathsValid {c : ServerConfig} (h : ¬c.PathsValid) (files : FileTree)
    (path : Bytes) : c.save files path = (.error (.json .unfit), files) := by
  simp [save, toDocument, h]

end ServerConfig

end HttpServer
