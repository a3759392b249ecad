namespace PagePress

-- Why a call came to no result: an error that it returned, or a panic, which leaves what was done
-- by then and tells its caller nothing.
inductive Halt (ε : Type) where
  | fault (error : ε)
  | panic
  deriving DecidableEq, Repr

def Halt.map {ε δ : Type} (f : ε → δ) : Halt ε → Halt δ
  | .fault error => .fault (f error)
  | .panic => .panic

def returned {ε α : Type} (outcome : Except ε α) : Except (Halt ε) α := outcome.mapError .fault

@[simp] theorem returned_ok {ε α : Type} (a : α) : returned (.ok a : Except ε α) = .ok a := rfl

@[simp] theorem returned_error {ε α : Type} (error : ε) :
    returned (.error error : Except ε α) = .error (.fault error) := rfl

theorem returned_eq_error {ε α : Type} {outcome : Except ε α} {stop : Halt ε} :
    returned outcome = .error stop ↔ ∃ error, outcome = .error error ∧ .fault error = stop := by
  cases outcome <;> simp

inductive ErrorCode where
  | fileSizeExceeded
  | fileParseFail
  | readFileFail
  | fileConversionFail
  | fileStoreFail
  | fetchingFile
  | idNotFound
  | keyNotFound
  | encodingFile
  | convertingToPdf
  | decodingData
  | idNeeded
  | templateExecFail
  deriving DecidableEq, Repr

namespace ErrorCode

def all : List ErrorCode :=
  [.fileSizeExceeded, .fileParseFail, .readFileFail, .fileConversionFail, .fileStoreFail,
    .fetchingFile, .idNotFound, .keyNotFound, .encodingFile, .convertingToPdf, .decodingData,
    .idNeeded, .templateExecFail]

def number : ErrorCode → Nat
  | .fileSizeExceeded => 1000
  | .fileParseFail => 1001
  | .readFileFail => 1002
  | .fileConversionFail => 1003
  | .fileStoreFail => 1004
  | .fetchingFile => 1005
  | .idNotFound => 1006
  | .keyNotFound => 1007
  | .encodingFile => 1008
  | .convertingToPdf => 1009
  | .decodingData => 1010
  | .idNeeded => 1011
  | .templateExecFail => 1012

def message : ErrorCode → String
  | .fileSizeExceeded => "file size exceeded"
  | .fileParseFail => "failed to parse file"
  | .readFileFail => "failed to read file"
  | .fileConversionFail => "failed to convert file"
  | .fileStoreFail => "unable to store file"
  | .fetchingFile => "failed to fetch file"
  | .idNotFound => "id not found"
  | .keyNotFound => "unable to find this Uuid"
  | .encodingFile => "unable to json encode the data"
  | .convertingToPdf => "unable to convert to pdf format"
  | .decodingData => "unable to decode the data"
  | .idNeeded => "id needed"
  | .templateExecFail => "failed to execute template"

def label : ErrorCode → String
  | .fileSizeExceeded => "file_size_exceeded"
  | .fileParseFail => "file_parse_fail"
  | .readFileFail => "read_file_fail"
  | .fileConversionFail => "file_conversion_fail"
  | .fileStoreFail => "file_store_fail"
  | .fetchingFile => "fetching_file"
  | .idNotFound => "id_not_found"
  | .keyNotFound => "key_not_found"
  | .encodingFile => "encoding_file"
  | .convertingToPdf => "converting_to_pdf"
  | .decodingData => "decoding_data"
  | .idNeeded => "id_needed"
  | .templateExecFail => "template_exec_fail"

def text (code : ErrorCode) : String := toString code.number ++ ": " ++ code.message

end ErrorCode
end PagePress
