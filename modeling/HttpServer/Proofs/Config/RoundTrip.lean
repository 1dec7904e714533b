import HttpServer.Config.Storage
import HttpServer.Proofs.Config.Members
import HttpServer.Proofs.Site.Writing

/-!
# Settings survive being saved

`EditedDocument` says what may have become of a saved document: members were taken out, here and
inside the store, the others were brought into another order, unknown members were put in between,
and the blanks are others. Such a document is read as the settings whose members are left, with
defaults for the others. The document as it was saved is the case where nothing was taken out.

A file that was written is found under its path with what was written, so what is loaded is what was
saved. The number of workers that was taken out is that of the processors of the machine that loads.
-/

namespace HttpServer

open Json Json.Scan

section Blanks

variable {g t : Bytes} {α : Type} {read : Bytes → Result α} {a : α}

theorem delimited_gap (h : Gap g) : Delimited g := by
  cases g with
  | nil => exact delimited_nil
  | cons b g =>
      intro c hc
      cases hc
      exact Or.inl (h b List.mem_cons_self)

/-- A document with blanks around it is read. -/
theorem Json.Scan.Reads.complete_eq {g' : Bytes} (h : Reads read t a) (hg : Gap g) (hg' : Gap g') :
    complete (read (g ++ (t ++ g'))) = .ok a := by
  have hdrop : dropGap g' = [] := by
    have happend := dropGap_append hg' []
    rwa [List.append_nil] at happend
  rw [h g g' hg (delimited_gap hg')]
  exact if_pos hdrop

end Blanks

namespace ServerConfig

/-- A document in which the members `kept` are left of those that were saved, and `keptInStore` of
those of the store. -/
inductive EditedDocument (c : ServerConfig) (kept keptInStore : List (Bytes × Bytes)) :
    Bytes → Prop where
  | spaced {g store t g' : Bytes} : Gap g → EditedText c.store.saved keptInStore store →
      EditedText (c.saved store) kept t → Gap g' → EditedDocument c kept keptInStore (g ++ (t ++ g'))

/-- The settings whose members are left, with defaults for the others. -/
def keepingIn (processors : UInt64) (c : ServerConfig) (kept keptInStore : List (Bytes × Bytes)) :
    ServerConfig :=
  { c with store := c.store.keeping (namesOf keptInStore) }.keeping processors (namesOf kept)

section Documents

variable {processors : UInt64} {c : ServerConfig} {kept keptInStore : List (Bytes × Bytes)}
  {document : Bytes}

theorem valid_saved (h : c.PathsValid) {store : Bytes} (hstore : Utf8.Valid store) :
    ∀ m ∈ c.saved store, Utf8.Valid m.2 := by
  have hpath : Utf8.Valid (pathText c.logFile) := by
    cases hfile : c.logFile with
    | none => exact Value.null.valid
    | some p => exact (value_quote (h.2 p hfile)).valid
  have hlevel : Utf8.Valid (quote (Bytes.ascii c.logLevel.name)) := by
    apply Utf8.valid_ascii
    cases c.logLevel <;> decide +kernel
  simp only [saved, List.forall_mem_cons]
  exact ⟨(value_quote (Utf8.valid_encode _)).valid, (value_wholeText _).valid,
    (value_wholeText _).valid, (value_boolText _).valid, (value_wholeText _).valid,
    (value_boolText _).valid, (value_wholeText _).valid, (value_wholeText _).valid,
    (value_wholeText _).valid, (value_quote h.1).valid, (value_wholeText _).valid, hstore, hlevel,
    (value_wholeText _).valid, hpath, nofun⟩

/-- An edited document is text. -/
theorem EditedDocument.valid (hd : c.EditedDocument kept keptInStore document) (h : c.PathsValid) :
    Utf8.Valid document := by
  cases hd with
  | spaced hg hstore ht hg' =>
      have hvalid := hstore.valid fun m hm => (c.store.value_saved m hm).valid
      exact Utf8.valid_append hg.valid (Utf8.valid_append (ht.valid (valid_saved h hvalid)) hg'.valid)

/-- An edited document is read as the settings whose members are left. -/
theorem EditedDocument.ofFile_eq (hd : c.EditedDocument kept keptInStore document)
    (h : c.PathsValid) :
    ofFile processors document = .ok (c.keepingIn processors kept keptInStore) := by
  have hvalid : Utf8.isValid document = true := hd.valid h
  cases hd with
  | spaced hg hstore ht hg' =>
      have hread := (reads_edited processors h hstore ht).complete_eq hg hg'
      rw [ofFile, if_pos hvalid, ofDocument, hread]
      rfl

/-- Nothing was taken out. -/
theorem keepingIn_saved (processors : UInt64) (c : ServerConfig) (store : Bytes) :
    c.keepingIn processors (c.saved store) c.store.saved = c := by
  have hstore : c.store.keeping (namesOf c.store.saved) = c.store := c.store.keeping_names
  unfold keepingIn
  rw [hstore]
  exact c.keeping_names processors

end Documents

section Saved

/-- The text of the store in the document that is saved. -/
def storeText (c : ServerConfig) : Bytes :=
  prettyAt 1 c.store.toJson

/-- Every member that is saved. -/
def allSaved (c : ServerConfig) : List (Bytes × Bytes) :=
  c.saved c.storeText

/-- An object as it is printed has the members that were printed. -/
theorem editedText_pretty {ms : List (Bytes × Json)} {saved : List (Bytes × Bytes)} {level : Nat}
    (hms : ms.map (printed (level + 1)) = saved) (hnames : ∀ name ∈ namesOf saved, Utf8.Valid name) :
    EditedText saved saved (prettyAt level (.object ms)) := by
  refine .laidOut (edited_self saved) (hms ▸ objectText_pretty (fun m hm => ?_) level)
  apply hnames
  rw [← hms]
  exact List.mem_map_of_mem (List.mem_map_of_mem hm)

theorem editedText_store (c : StoreConfig) (level : Nat) :
    EditedText c.saved c.saved (prettyAt level c.toJson) := by
  refine editedText_pretty ?_ StoreConfig.valid_names
  simp only [List.map_cons, List.map_nil, printed, prettyAt, Number.render]
  rfl

theorem editedText_server (c : ServerConfig) :
    EditedText c.allSaved c.allSaved c.toJson.pretty := by
  refine editedText_pretty ?_ valid_names
  unfold allSaved saved pathText
  cases c.logFile with
  | none =>
      simp only [List.map_cons, List.map_nil, printed, prettyAt, Number.render]
      rfl
  | some p =>
      simp only [List.map_cons, List.map_nil, printed, prettyAt, Number.render]
      rfl

/-- The document that is saved is an edited one from which nothing was taken out. -/
theorem editedDocument_saved (c : ServerConfig) :
    c.EditedDocument c.allSaved c.store.saved c.toJson.pretty := by
  have hdocument := EditedDocument.spaced gap_nil (editedText_store c.store 1) c.editedText_server
    gap_nil
  rwa [List.append_nil] at hdocument

theorem toDocument_of_pathsValid {c : ServerConfig} (h : c.PathsValid) :
    c.toDocument = .ok c.toJson.pretty :=
  if_pos h

/-- Reading what is saved gives what was saved. -/
theorem ofFile_saved {processors : UInt64} {c : ServerConfig} (h : c.PathsValid) :
    ofFile processors c.toJson.pretty = .ok c := by
  rw [c.editedDocument_saved.ofFile_eq h, allSaved, keepingIn_saved]

end Saved

section Files

variable {processors : UInt64} {c : ServerConfig} {files files' : FileTree} {path : Bytes} {f : File}

theorem load_of_file (h : files.file path = .ok f) :
    load processors files path = ofFile processors f.data := by
  unfold load
  rw [h]

theorem save_of_write_error (h : c.PathsValid) {e : IoError}
    (hwrite : files.write path c.toJson.pretty = .error e) :
    c.save files path = (.error (.io e), files) := by
  unfold save
  rw [toDocument_of_pathsValid h]
  simp only [hwrite]

theorem save_of_write (h : c.PathsValid) (hwrite : files.write path c.toJson.pretty = .ok files') :
    c.save files path = (.ok (), files') := by
  unfold save
  rw [toDocument_of_pathsValid h]
  simp only [hwrite]

/-- After the settings were saved, their file holds the document. What is loaded is what was saved,
unless a file was there already that its owner may not read. -/
theorem load_cases_of_write (h : c.PathsValid)
    (hwrite : files.write path c.toJson.pretty = .ok files') :
    (∃ f, files'.stat path = .ok (.file f) ∧ f.data = c.toJson.pretty) ∧
      (load processors files' path = .ok c ∨ ∃ f, files.stat path = .ok (.file f) ∧
        f.isReadable = false ∧
        load processors files' path = .error (.io (.os .permissionDenied))) := by
  obtain ⟨f, hstat, hdata, hmode⟩ := FileTree.write_cases hwrite
  refine ⟨⟨f, hstat, hdata⟩, ?_⟩
  cases hreadable : f.isReadable with
  | true =>
      have hfile : files'.file path = .ok f := by
        unfold FileTree.file
        rw [hstat]
        exact if_pos hreadable
      rw [load_of_file hfile, hdata]
      exact Or.inl (ofFile_saved h)
  | false =>
      have hload : load processors files' path = .error (.io (.os .permissionDenied)) := by
        unfold load FileTree.file
        rw [hstat]
        simp only [hreadable, Bool.false_eq_true, if_false]
      unfold File.isReadable at hreadable
      rcases hmode with hmode | ⟨f₀, hf₀, hmode⟩
      · -- a new file can be read
        rw [hmode] at hreadable
        exact absurd hreadable (by decide)
      · rw [hmode] at hreadable
        exact Or.inr ⟨f₀, hf₀, hreadable, hload⟩

/-- Settings whose paths are texts are loaded as they were saved, on any machine. From an edited
document the settings whose members are left are loaded, with the defaults of the machine for the
others. Where a path is not a text or the document cannot be written, saving fails and leaves the
files as they were. -/
theorem loaded_as_saved (processors : UInt64) (c : ServerConfig) :
    (c.PathsValid → ∃ document, c.toDocument = .ok document ∧
      c.EditedDocument c.allSaved c.store.saved document ∧
      (∀ files path e, files.write path document = .error e →
        c.save files path = (.error (.io e), files)) ∧
      (∀ files path files', files.write path document = .ok files' →
        c.save files path = (.ok (), files') ∧
        (∃ f, files'.stat path = .ok (.file f) ∧ f.data = document) ∧
        (load processors files' path = .ok c ∨ ∃ f, files.stat path = .ok (.file f) ∧
          f.isReadable = false ∧
          load processors files' path = .error (.io (.os .permissionDenied)))) ∧
      ∀ kept keptInStore edited, c.EditedDocument kept keptInStore edited →
        ofFile processors edited = .ok (c.keepingIn processors kept keptInStore) ∧
        ∀ files path f, files.file path = .ok f → f.data = edited →
          load processors files path = .ok (c.keepingIn processors kept keptInStore)) ∧
    (¬c.PathsValid → ∀ files path, c.save files path = (.error (.json .unfit), files)) := by
  refine ⟨fun h => ?_, save_of_not_pathsValid⟩
  refine ⟨c.toJson.pretty, toDocument_of_pathsValid h, c.editedDocument_saved,
    fun files path e => save_of_write_error h, fun files path files' hwrite => ?_, ?_⟩
  · exact ⟨save_of_write h hwrite, load_cases_of_write h hwrite⟩
  · intro kept keptInStore edited hedited
    have hread : ofFile processors edited = .ok (c.keepingIn processors kept keptInStore) :=
      hedited.ofFile_eq h
    refine ⟨hread, fun files path f hfile hdata => ?_⟩
    rw [load_of_file hfile, hdata, hread]

/-- Settings of which three are not the defaults of a machine with one processor. -/
def chatty : ServerConfig :=
  { default 1 with port := 9000, logLevel := .debug, workerThreads := 3 }

/-- Of the members that were saved, two are left, in another order and with another one in between.
On a machine with four processors they are loaded with four workers. -/
theorem loaded_as_saved_chatty : chatty.PathsValid ∧
    ofFile 4 (Bytes.ascii
      "\x7b\"log_level\": \"debug\", \"extra\": [null], \"port\": 9000\x7d\n") =
      .ok { chatty with workerThreads := 4 } := by
  have hvalid : chatty.PathsValid := by
    decide +kernel
  have hspells (name : String) (h : ∀ b ∈ Bytes.ascii name, b < 0x80) :
      Spells ((Bytes.ascii name).flatMap escape) (Bytes.ascii name) :=
    spells_flatMap_escape (Utf8.valid_ascii h)
  have hspace : Gap (Bytes.ascii " ") := gap_space
  have hlevel : MemberText Spells (Bytes.ascii "log_level", Bytes.ascii "\"debug\"")
      (Bytes.ascii "\"log_level\": \"debug\"") :=
    .spaced gap_nil (hspells "log_level" (by decide +kernel)) gap_nil hspace gap_nil
  have hextra : MemberText Spells (Bytes.ascii "extra", Bytes.ascii "[null]")
      (Bytes.ascii " \"extra\": [null]") :=
    .spaced hspace (hspells "extra" (by decide +kernel)) gap_nil hspace gap_nil
  have hport : MemberText Spells (Bytes.ascii "port", Bytes.ascii "9000")
      (Bytes.ascii " \"port\": 9000") :=
    .spaced hspace (hspells "port" (by decide +kernel)) gap_nil hspace gap_nil
  have hlist : Value (Bytes.ascii "[null]") :=
    .list (.items (.last (.spaced gap_nil gap_nil))) (List.forall_mem_singleton.2 .null)
  have hnone : Edited chatty.store.saved [] [] :=
    ⟨List.nil_sublist _, List.Perm.refl [], nofun⟩
  have hstore : EditedText chatty.store.saved [] (Bytes.ascii "\x7b\x7d") :=
    .laidOut hnone (.empty gap_nil)
  have hedited : Edited (chatty.saved (Bytes.ascii "\x7b\x7d"))
      [(Bytes.ascii "port", Bytes.ascii "9000"), (Bytes.ascii "log_level", Bytes.ascii "\"debug\"")]
      [(Bytes.ascii "log_level", Bytes.ascii "\"debug\""),
        (Bytes.ascii "extra", Bytes.ascii "[null]"), (Bytes.ascii "port", Bytes.ascii "9000")] := by
    refine ⟨by decide, by decide, ?_⟩
    simp only [List.forall_mem_cons]
    exact ⟨fun h => absurd (by decide) h, fun _ => hlist, fun h => absurd (by decide) h, nofun⟩
  have hdocument := EditedDocument.spaced gap_nil hstore
    (.laidOut hedited (.members (.more hlevel (.more hextra (.last hport))))) (gap_newline 0)
  obtain ⟨_, _, _, _, _, hread⟩ := (loaded_as_saved 4 chatty).1 hvalid
  have hkept : chatty.keepingIn 4
      [(Bytes.ascii "port", Bytes.ascii "9000"), (Bytes.ascii "log_level", Bytes.ascii "\"debug\"")]
      [] = { chatty with workerThreads := 4 } := by
    decide +kernel
  have hofFile := (hread _ _ _ hdocument).1
  rw [hkept] at hofFile
  exact ⟨hvalid, hofFile⟩

end Files

end ServerConfig

end HttpServer
