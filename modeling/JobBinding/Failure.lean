import JobBinding.Text.Scan

/-!
# Failures

Everything that can go wrong, as causes. The wording of a cause is in its `message` and nowhere
else, so a text that one process sends to another is the message of a cause.
-/

namespace JobBinding

/-- Why an operation on files failed. -/
inductive FileFault where
  | notFound
  | notADirectory
  | isADirectory
  | alreadyExists
  | nameTooLong
  /-- The path contains the character NUL. -/
  | unusablePath
  /-- The content is not UTF-8. -/
  | notText
  deriving DecidableEq, Repr

def FileFault.message : FileFault → String
  | .notFound => "No such file or directory (os error 2)"
  | .notADirectory => "Not a directory (os error 20)"
  | .isADirectory => "Is a directory (os error 21)"
  | .alreadyExists => "File exists (os error 17)"
  | .nameTooLong => "File name too long (os error 36)"
  | .unusablePath => "file name contained an unexpected NUL byte"
  | .notText => "stream did not contain valid UTF-8"

/-- Why some bytes cannot go as a frame over a connection. -/
inductive FrameFault where
  /-- The connection ended inside the frame. -/
  | cut
  /-- The length is above the limit. -/
  | oversized
  deriving DecidableEq, Repr

def FrameFault.message : FrameFault → String
  | .cut => "bytes remaining on stream"
  | .oversized => "frame size too big"

/-- Why the resources of a process could not be observed. -/
inductive ProbeFault where
  /-- The listing tool is not installed. -/
  | toolMissing (tool : String)
  | toolFailed (tool : String) (status : Nat) (stdout stderr : String)
  /-- A line of the listing has another form than expected. -/
  | unexpectedLine (tool : String) (line : List Char) (stop : Text.Mismatch)
  /-- A reason given by the source of the observation. -/
  | reported (reason : String)
  deriving DecidableEq, Repr

def ProbeFault.message : ProbeFault → String
  | .toolMissing tool =>
    "Cannot execute " ++ tool ++
      ": Os \x7b code: 2, kind: NotFound, message: \"No such file or directory\" \x7d"
  | .toolFailed tool status stdout stderr =>
    tool ++ " exited with error code exit status: " ++ toString status ++
      "\nStdout: " ++ stdout ++ "\nStderr: " ++ stderr
  | .unexpectedLine tool line stop =>
    "Unexpected output from " ++ tool ++ ": " ++ String.ofList line ++
      " (" ++ stop.message ++ ")"
  | .reported reason => reason

/-- How the processes of a group broke the rules of a gather. -/
inductive ProtocolFault where
  | invalidRank (rank : UInt32)
  | repeatedRank (rank : UInt32)
  | missingRank (rank : Nat)
  | alreadySent
  | coordinatorLeft
  | alreadyFinished
  | participantsLeft
  | otherSize (announced own : UInt32)
  | closedEarly
  deriving DecidableEq, Repr

def ProtocolFault.message : ProtocolFault → String
  | .invalidRank rank => "Message from invalid rank " ++ toString rank.toNat
  | .repeatedRank rank => "Rank " ++ toString rank.toNat ++ " contributed more than once"
  | .missingRank rank => "Rank " ++ toString rank ++ " did not contribute"
  | .alreadySent => "Contribution already sent"
  | .coordinatorLeft => "Coordinator has left the group"
  | .alreadyFinished => "Gather already finished"
  | .participantsLeft => "Participants left before contributing"
  | .otherSize announced own =>
    "Coordinator expects " ++ toString announced.toNat ++ " processes, this job has " ++
      toString own.toNat
  | .closedEarly => "Connection closed before a message was received"

/-- Why the workflow manager did not tell the name of the cluster. -/
inductive DetectionFault where
  | toolMissing
  | toolFailed (status : Nat) (stderr : String)
  deriving DecidableEq, Repr

def DetectionFault.message : DetectionFault → String
  | .toolMissing =>
    "Cannot execute `row show cluster --name`: No such file or directory (os error 2)"
  | .toolFailed status stderr =>
    "`row show cluster --name` exited with exit status: " ++ toString status ++ ": " ++ stderr

/-- The cause of a failed operation. -/
inductive Failure where
  | file (fault : FileFault)
  | frame (fault : FrameFault)
  /-- A value is too large to be sent. -/
  | unencodable
  /-- A file or a message has not the expected form. -/
  | undecodable (detail : String)
  | unsupportedCluster (name : String)
  | missingVariable (name : String)
  | invalidVariable (name value : String)
  | processCount (expected actual : UInt32)
  | probe (fault : ProbeFault)
  | unknownAction (name : String)
  | infeasibleAction (name : String)
  /-- A participant gave up; the reason is its own message. -/
  | aborted (rank : UInt32) (reason : String)
  | protocol (fault : ProtocolFault)
  /-- A text was scanned for something else. -/
  | mismatch (stop : Text.Mismatch)
  | detection (fault : DetectionFault)
  | unconnected (reason : String)
  deriving DecidableEq, Repr

def Failure.message : Failure → String
  | .file fault => fault.message
  | .frame fault => fault.message
  | .unencodable => "Serialization error: the size limit has been reached"
  | .undecodable detail => "Deserialization error: " ++ detail
  | .unsupportedCluster name => "Unsupported cluster `" ++ name ++ "`"
  | .missingVariable name => "Environment variable `" ++ name ++ "` is not set"
  | .invalidVariable name value =>
    "Environment variable `" ++ name ++ "` has an invalid value `" ++ value ++ "`"
  | .processCount expected actual =>
    "Incorrect number of processes: expected " ++ toString expected.toNat ++ ", found " ++
      toString actual.toNat
  | .probe fault => "Probe error: " ++ fault.message
  | .unknownAction name => "Unknown action `" ++ name ++ "`"
  | .infeasibleAction name => "Action `" ++ name ++ "` cannot run on this cluster"
  | .aborted rank reason =>
    "Participant " ++ toString rank.toNat ++ " aborted the gather: " ++ reason
  | .protocol fault => "Protocol error: " ++ fault.message
  | .mismatch stop => "Error: " ++ stop.message
  | .detection fault => "Error: " ++ fault.message
  | .unconnected reason => "Error: " ++ reason

/-- Replaces the error of a computation that cannot fail otherwise. -/
def orFail {ε α : Type} (wrap : ε → Failure) : Except ε α → Except Failure α
  | .ok value => .ok value
  | .error fault => .error (wrap fault)

end JobBinding
