import CombineStream.Basic
import CombineStream.Iterators
import CombineStream.Utf8
import CombineStream.Slice
import CombineStream.SliceStream
import CombineStream.Str
import CombineStream.Stream
import CombineStream.Lawful
import CombineStream.Outcome
import CombineStream.Session
import CombineStream.Position
import CombineStream.Resume
import CombineStream.Compose
import CombineStream.PartialRuns
