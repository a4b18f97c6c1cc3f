import HiTuxShare.DownloadCredit
import HiTuxShare.FileStream
import HiTuxShare.UploadEvents

namespace HiTuxShare
set_option autoImplicit true

abbrev TransferPiece := Piece SharedFile UInt8

/-- The message a piece travels in. -/
def render (localSessionId : String) (mungeMode : Int32) : TransferPiece → TransferMessage
  | .notice => .ofWhat .notifyQueued
  | .header file => UploadWorld.fileHeader localSessionId file
  | .data bytes => UploadWorld.fileData mungeMode bytes

namespace UploadWorld

@[simp] theorem fileHeader_what (localSessionId : String) (file : SharedFile) :
    (fileHeader localSessionId file).what = .fileHeader := by
  rw [fileHeader]
  split <;> rfl

theorem items_fileHeader (localSessionId : String) (file : SharedFile)
    (pick : FieldValue → Option α) (h : fieldKind ≠ name) :
    (fileHeader localSessionId file).items pick name =
      (fileHeader localSessionId { file with kind := "" }).items pick name := by
  rw [fileHeader]
  split
  · exact Message.items_add_of_ne _ pick _ h
  · rfl

@[simp] theorem readFileHeader_fileHeader (localSessionId : String) (file : SharedFile) :
    readFileHeader (fileHeader localSessionId file) = some ⟨file.fileName, file.fileSize⟩ := by
  have hname : (fileHeader localSessionId file).findString fieldFileName = some file.fileName := by
    rw [Message.findString, Message.strings, items_fileHeader _ _ _ (by decide)]
    rfl
  have hsize : (fileHeader localSessionId file).findInt64 fieldFileSize = some file.fileSize := by
    rw [Message.findInt64, items_fileHeader _ _ _ (by decide)]
    rfl
  simp only [readFileHeader, hname, hsize]

/-- The bytes as they go over the wire. -/
def munged (mungeMode : Int32) (bytes : List UInt8) : List UInt8 :=
  if mungeMode = mungeModeXor then xorBytes bytes else bytes

@[simp] theorem fileData_data (mungeMode : Int32) (bytes : List UInt8) :
    (fileData mungeMode bytes).findData fieldData = some (munged mungeMode bytes) := rfl

/-- Both sides sum the munged bytes, and the sign of the field loses nothing. -/
theorem fileData_passesChecksum (mungeMode : Int32) (bytes : List UInt8) :
    passesChecksum (fileData mungeMode bytes) (munged mungeMode bytes) = true := by
  have hfield : (fileData mungeMode bytes).findInt32 fieldChecksum =
      some (calculateChecksum (munged mungeMode bytes)).toInt32 := rfl
  simp only [passesChecksum, hfield, UInt32.toUInt32_toInt32, decide_eq_true_eq]
  rfl

theorem unmunge_fileData (h : mungeMode = mungeModeNone ∨ mungeMode = mungeModeXor)
    (bytes : List UInt8) :
    unmunge (fileData mungeMode bytes) (munged mungeMode bytes) = some bytes := by
  have hfield : (fileData mungeMode bytes).findInt32 fieldMungeMode = some mungeMode := rfl
  simp only [unmunge, hfield, Option.getD_some, munged]
  rcases h with rfl | rfl
  · rfl
  · simp

/-- Verification comes before un-munging, and both undo what the sender did. -/
theorem fileData_isChunk (h : mungeMode = mungeModeNone ∨ mungeMode = mungeModeXor)
    (bytes : List UInt8) : DownloadWorld.IsChunk (fileData mungeMode bytes) bytes :=
  ⟨rfl, _, fileData_data .., fileData_passesChecksum .., unmunge_fileData h bytes⟩

end UploadWorld

namespace DownloadWorld

@[simp] theorem fileList_what (mungeMode : Int32) (download : FileDownload) :
    (fileList mungeMode download).what = .fileList := by
  rw [fileList]
  refine List.foldlRecOn (motive := fun request : TransferMessage => request.what = .fileList) _
    addFileToList rfl ?_
  intro request h requested _
  exact h

theorem items_fileList (mungeMode : Int32) (download : FileDownload)
    (pick : FieldValue → Option α) (hnames : fieldFileListNames ≠ name)
    (hoffsets : fieldFileListOffsets ≠ name) (hpath : fieldPath ≠ name)
    (hmd5 : fieldFileListMd5 ≠ name) :
    (fileList mungeMode download).items pick name =
      (fileList mungeMode { download with requestedFiles := [] }).items pick name := by
  rw [fileList]
  refine List.foldlRecOn (motive := fun request : TransferMessage =>
    request.items pick name = _) _ addFileToList rfl ?_
  intro request h requested _
  rw [← h]
  simp only [addFileToList, Message.addString, Message.addInt64, Message.addData]
  rw [Message.items_add_of_ne _ _ _ hmd5, Message.items_add_of_ne _ _ _ hpath,
    Message.items_add_of_ne _ _ _ hoffsets, Message.items_add_of_ne _ _ _ hnames]

theorem fileList_mungeMode (mungeMode : Int32) (download : FileDownload) :
    (fileList mungeMode download).findInt32 fieldMungeMode = some mungeMode := by
  rw [Message.findInt32, items_fileList _ _ _ (by decide) (by decide) (by decide) (by decide)]
  rfl

theorem strings_addFileToList (request : TransferMessage) (requested : RequestedFile) :
    (addFileToList request requested).strings fieldFileListNames =
      request.strings fieldFileListNames ++ [requested.fileName] := by
  simp only [addFileToList, Message.strings, Message.addString, Message.addInt64, Message.addData]
  rw [Message.items_add_of_ne _ _ _ (by decide), Message.items_add_of_ne _ _ _ (by decide),
    Message.items_add_of_ne _ _ _ (by decide), Message.items_add_self]
  rfl

theorem fileList_names (mungeMode : Int32) (download : FileDownload) :
    (fileList mungeMode download).strings fieldFileListNames = requestedNames download := by
  have hfold (request : TransferMessage) (files : List RequestedFile) :
      (files.foldl addFileToList request).strings fieldFileListNames =
        request.strings fieldFileListNames ++ files.map RequestedFile.fileName := by
    induction files generalizing request with
    | nil => simp
    | cons requested rest ih =>
      rw [List.foldl_cons, ih, strings_addFileToList, List.map_cons, List.append_assoc]
      rfl
  rw [fileList, hfold]
  rfl

end DownloadWorld

end HiTuxShare
